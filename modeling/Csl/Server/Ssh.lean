import Csl.Library.Dict
import Csl.Library.Runs
import Csl.Library.Whitespace

/-! The pool of SSH connections to the agents' machines.

The lock is held while a connection is made, so that a call to get one is a single step; a
connection may close at any time.
-/

set_option autoImplicit false

namespace Csl.Server.Ssh

/-- The key of the pool. -/
structure Target where
  host : String
  port : Nat
  username : String
  deriving DecidableEq, Repr

structure Call where
  target : Target
  privateKey : List UInt8
  hostKey : Option String

structure Asyncssh (Key Pin : Type) where
  importPrivateKey : List UInt8 → Except String Key
  importKnownHosts : String → Except String Pin

variable {Key Pin : Type} (asyncssh : Asyncssh Key Pin)

/-- Without a host key any server is trusted. -/
def buildKnownHosts (hostKey : Option String) : Except String (Option Pin) :=
  match hostKey with
  | none => .ok none
  | some line =>
    if line = "" then .ok none
    else (asyncssh.importKnownHosts ("* " ++ Whitespace.strip line ++ "\n")).map some

/-- A connection, with the arguments it was made with. -/
structure Connection (Key Pin : Type) where
  target : Target
  clientKey : Key
  knownHosts : Option Pin
  closed : Bool

structure Entry where
  conn : Nat
  listeners : List Nat

/-- The pool, and the connections made so far; a connection's number is its place. -/
structure SSHConnectionPool (Key Pin : Type) where
  pool : Dict Target Entry
  connections : List (Connection Key Pin)

variable (s : SSHConnectionPool Key Pin)

def empty : SSHConnectionPool Key Pin := ⟨Dict.empty, []⟩

/-- The pooled connection of a target, while it is open. -/
def cached (target : Target) : Option (Nat × Connection Key Pin) :=
  match s.pool.get? target with
  | none => none
  | some entry =>
    match s.connections[entry.conn]? with
    | none => none
    | some connection => if connection.closed then none else some (entry.conn, connection)

/-- `dialled` is how the attempt to connect with these arguments ends. -/
def connect (call : Call) (dialled : Except String Unit) : Except String Nat × SSHConnectionPool Key Pin :=
  match asyncssh.importPrivateKey call.privateKey with
  | .error e => (.error e, s)
  | .ok clientKey =>
    match buildKnownHosts asyncssh call.hostKey with
    | .error e => (.error e, s)
    | .ok knownHosts =>
      match dialled with
      | .error e => (.error e, s)
      | .ok () =>
        let conn := s.connections.length
        (.ok conn,
          { pool := s.pool.set call.target ⟨conn, []⟩
            connections := s.connections ++ [⟨call.target, clientKey, knownHosts, false⟩] })

def getConnection (call : Call) (dialled : Except String Unit) :
    Except String Nat × SSHConnectionPool Key Pin :=
  match cached s call.target with
  | some (conn, _) => (.ok conn, s)
  | none => connect asyncssh s call dialled

/-- The listener of a tunnel is kept with whatever is pooled by then. -/
def track (target : Target) (listener : Nat) : SSHConnectionPool Key Pin :=
  match s.pool.get? target with
  | none => s
  | some entry => { s with pool := s.pool.set target { entry with listeners := entry.listeners ++ [listener] } }

/-- What `close` does under the lock; the connection it closes is closed later. -/
def close (target : Target) : SSHConnectionPool Key Pin := { s with pool := s.pool.pop target }

def closed (conn : Nat) : SSHConnectionPool Key Pin :=
  { s with connections := s.connections.modify conn fun connection => { connection with closed := true } }

inductive Event where
  | getConnection (call : Call) (dialled : Except String Unit)
  /-- The part of `open_tunnel` that gets its connection. -/
  | openTunnel (call : Call) (dialled : Except String Unit)
  | track (target : Target) (listener : Nat)
  | close (target : Target)
  | closed (conn : Nat)

def Event.calls : Event → Option (Call × Except String Unit)
  | .getConnection call dialled | .openTunnel call dialled => some (call, dialled)
  | .track .. | .close _ | .closed _ => none

def step : Event → SSHConnectionPool Key Pin
  | .getConnection call dialled | .openTunnel call dialled => (getConnection asyncssh s call dialled).2
  | .track target listener => track s target listener
  | .close target => close s target
  | .closed conn => closed s conn

/-! ## Pinning -/

def MadeWith (call : Call) (connection : Connection Key Pin) : Prop :=
  buildKnownHosts asyncssh call.hostKey = .ok connection.knownHosts ∧
    asyncssh.importPrivateKey call.privateKey = .ok connection.clientKey

/-- The caller has a host key to pin. -/
def Call.Pins (call : Call) : Prop := ∃ line, call.hostKey = some line ∧ line ≠ ""

/-- Whatever connection a pinning call of the event returns leads to its target, and was made with
its keys. -/
def Pinned (event : Event) : Prop :=
  ∀ call dialled, event.calls = some (call, dialled) → call.Pins → ∀ conn,
    (getConnection asyncssh s call dialled).1 = .ok conn →
      ∃ connection, (step asyncssh s event).connections[conn]? = some connection ∧
        connection.target = call.target ∧ MadeWith asyncssh call connection

/-- A pinning call that finds an open connection has the keys that the connection was made with. -/
def Agrees (event : Event) : Prop :=
  ∀ call dialled, event.calls = some (call, dialled) → call.Pins → ∀ conn connection,
    cached s call.target = some (conn, connection) → MadeWith asyncssh call connection

def Pooled (s : SSHConnectionPool Key Pin) : Prop :=
  ∀ target entry, s.pool.get? target = some entry →
    ∃ connection, s.connections[entry.conn]? = some connection ∧ connection.target = target

variable {asyncssh} {s}

theorem cached_some {target : Target} {conn : Nat} {connection : Connection Key Pin}
    (found : cached s target = some (conn, connection)) :
    s.connections[conn]? = some connection ∧ ∃ entry, s.pool.get? target = some entry ∧ entry.conn = conn := by
  rw [cached] at found
  split at found
  · cases found
  next entry pooled =>
    split at found
    · cases found
    next kept =>
      split_ifs at found
      cases found
      exact ⟨kept, entry, pooled, rfl⟩

/-- What an attempt to connect does: nothing, or a new connection is pooled. -/
theorem connect_cases (call : Call) (dialled : Except String Unit) :
    (∃ e, connect asyncssh s call dialled = (.error e, s)) ∨
      ∃ connection, connection.target = call.target ∧ MadeWith asyncssh call connection ∧
        connect asyncssh s call dialled = (.ok s.connections.length,
          ⟨s.pool.set call.target ⟨s.connections.length, []⟩, s.connections ++ [connection]⟩) := by
  unfold connect
  cases key : asyncssh.importPrivateKey call.privateKey with
  | error e => exact .inl ⟨e, rfl⟩
  | ok clientKey =>
    cases hosts : buildKnownHosts asyncssh call.hostKey with
    | error e => exact .inl ⟨e, rfl⟩
    | ok knownHosts =>
      cases dialled with
      | error e => exact .inl ⟨e, rfl⟩
      | ok => exact .inr ⟨_, rfl, ⟨hosts, key⟩, rfl⟩

theorem step_calls {event : Event} {call : Call} {dialled : Except String Unit}
    (calls : event.calls = some (call, dialled)) :
    step asyncssh s event = (getConnection asyncssh s call dialled).2 := by
  cases event <;> cases calls <;> rfl

theorem pooled_set {target : Target} {entry : Entry} {connections : List (Connection Key Pin)}
    (pooled : Pooled s) (more : ∀ (conn : Nat) (connection : Connection Key Pin),
      s.connections[conn]? = some connection →
        ∃ later : Connection Key Pin, connections[conn]? = some later ∧ later.target = connection.target)
    (leads : ∃ connection, connections[entry.conn]? = some connection ∧ connection.target = target) :
    Pooled ⟨s.pool.set target entry, connections⟩ := by
  intro other found get
  rw [Dict.get?_set] at get
  split_ifs at get with same
  · cases get
    rw [same]
    exact leads
  · obtain ⟨connection, kept, leads⟩ := pooled other found get
    obtain ⟨later, remains, equal⟩ := more _ _ kept
    exact ⟨later, remains, equal.trans leads⟩

theorem pooled_getConnection (pooled : Pooled s) (call : Call) (dialled : Except String Unit) :
    Pooled (getConnection asyncssh s call dialled).2 := by
  rw [getConnection]
  split
  · exact pooled
  rcases connect_cases call dialled with ⟨e, failed⟩ | ⟨connection, leads, _, made⟩
  · rw [failed]
    exact pooled
  · rw [made]
    apply pooled_set pooled
    · intro conn earlier found
      refine ⟨earlier, ?_, rfl⟩
      rw [List.getElem?_append_left (List.getElem?_eq_some_iff.mp found).1]
      exact found
    · exact ⟨connection, List.getElem?_concat_length, leads⟩

theorem pooled_step (event : Event) (pooled : Pooled s) : Pooled (step asyncssh s event) := by
  cases event with
  | getConnection call dialled | openTunnel call dialled => exact pooled_getConnection pooled call dialled
  | track target listener =>
    simp only [step, track]
    split
    · exact pooled
    next entry found =>
      exact pooled_set pooled (fun _ connection kept => ⟨connection, kept, rfl⟩) (pooled target entry found)
  | close target =>
    intro other entry get
    simp only [step, close, Dict.get?_pop] at get
    split_ifs at get
    exact pooled other entry get
  | closed conn =>
    intro target entry get
    obtain ⟨connection, kept, leads⟩ := pooled target entry get
    simp only [step, closed, List.getElem?_modify, kept]
    exact ⟨_, rfl, by split <;> exact leads⟩

/-- A call returns what it asks for just when it agrees with what is pooled. -/
theorem agrees_iff_pinned (event : Event) (pooled : Pooled s) :
    Agrees asyncssh s event ↔ Pinned asyncssh s event := by
  constructor
  · intro agrees call dialled calls pins conn returned
    rw [step_calls calls]
    rw [getConnection] at returned ⊢
    cases found : cached s call.target with
    | some pair =>
      obtain ⟨kept, connection⟩ := pair
      rw [found] at returned
      cases returned
      obtain ⟨made, entry, get, same⟩ := cached_some found
      obtain ⟨_, held, leads⟩ := pooled _ entry get
      rw [same, made] at held
      cases held
      exact ⟨connection, made, leads, agrees call dialled calls pins _ connection found⟩
    | none =>
      rw [found] at returned
      rcases connect_cases call dialled with ⟨e, failed⟩ | ⟨connection, leads, keys, made⟩
      · rw [failed] at returned
        cases returned
      · rw [made] at returned
        cases returned
        rw [made]
        exact ⟨connection, List.getElem?_concat_length, leads, keys⟩
  · intro pinned call dialled calls pins conn connection found
    have returned : getConnection asyncssh s call dialled = (.ok conn, s) := by
      rw [getConnection, found]
    obtain ⟨same, held, _, keys⟩ := pinned call dialled calls pins conn (by rw [returned])
    rw [step_calls calls, returned, (cached_some found).1] at held
    cases held
    exact keys

/-- In every run: the connections that pinning calls return lead to their targets and were made
with their keys, just when every pinning call has the keys of the open connection that it finds. -/
theorem pinned_iff (asyncssh : Asyncssh Key Pin) (events : List Event) :
    Runs.Meets (step asyncssh) (Pinned asyncssh) empty events ↔
      Runs.Meets (step asyncssh) (Agrees asyncssh) empty events := by
  symm
  apply Runs.meets_congr Pooled
  · exact fun s event => pooled_step event
  · exact fun s event => agrees_iff_pinned event
  · intro target entry get
    cases get

/-! ## A machine registered again -/

def plainKeys : Asyncssh (List UInt8) String where
  importPrivateKey bytes := .ok bytes
  importKnownHosts line := .ok line

def legacyCall : Call := ⟨⟨"10.0.0.5", 22, "csl"⟩, [1], none⟩

def pinningCall : Call := { legacyCall with hostKey := some "ssh-ed25519 AAAA" }

/-- The second call pins a host key and is given the connection that the first one made. -/
theorem unpinned_connection_returned :
    ¬ Runs.Meets (step plainKeys) (Pinned plainKeys) empty
      [.getConnection legacyCall (.ok ()), .getConnection pinningCall (.ok ())] := by
  intro pinned
  obtain ⟨connection, held, _, hosts, _⟩ :=
    pinned.2.1 pinningCall (.ok ()) rfl ⟨_, rfl, by decide⟩ 0 rfl
  cases held
  cases hosts

end Csl.Server.Ssh
