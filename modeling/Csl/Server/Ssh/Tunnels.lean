import Csl.Server.Ssh

/-! The tunnels that AgentClients open through the pool.

The client closes its tunnel's listener when it exits, and the pool keeps the listener with a
connection. Between two awaits of a client the others may act, connections may close, and a
listener may close with its connection.
-/

set_option autoImplicit false

namespace Csl.Server.Ssh.Tunnels

structure Listener where
  conn : Nat
  closed : Bool
  deriving DecidableEq, Repr

/-- Where the use of an AgentClient stands: its port is being forwarded, `open_tunnel` waits for the
lock, its body runs, or it is over. -/
inductive Stage where
  | forwarding (conn : Nat)
  | locking (listener : Nat)
  | inside (listener : Nat)
  | over
  deriving DecidableEq, Repr

structure AgentClient where
  call : Call
  agentTokenEncrypted : Option (List UInt8)
  stage : Stage

/-- The pool with the listeners made so far, those that `open_tunnel` returned to an AgentClient,
and the uses of AgentClients by their numbers. -/
structure Station (Key Pin : Type) where
  pool : SSHConnectionPool Key Pin
  listeners : List Listener
  returned : List Nat
  clients : Dict Nat AgentClient

/-- What `__aenter__` calls once it has its tunnel: the decryption of the token, and the constructor
of `httpx.AsyncClient`. -/
structure Http where
  decrypt : List UInt8 → Except String String
  asyncClient : List (String × String) → Except String Unit

/-- An empty token is none. -/
def authHeaders (http : Http) (token : Option (List UInt8)) (requestId : Option String) :
    Except String (List (String × String)) := do
  let authorization ← match token with
    | none | some [] => pure []
    | some enc => do return [("Authorization", "Bearer " ++ (← http.decrypt enc))]
  return authorization ++ (requestId.map ("X-Request-ID", ·)).toList

def enters (http : Http) (token : Option (List UInt8)) (requestId : Option String) : Except String Unit := do
  http.asyncClient (← authHeaders http token requestId)

variable {Key Pin : Type}

def start : Station Key Pin := ⟨Ssh.empty, [], [], Dict.empty⟩

namespace Station
variable (asyncssh : Asyncssh Key Pin) (s : Station Key Pin)

def setStage (number : Nat) (client : AgentClient) (stage : Stage) : Station Key Pin :=
  { s with clients := s.clients.set number { client with stage } }

def closeListener (listener : Nat) : Station Key Pin :=
  { s with listeners := s.listeners.modify listener fun listener => { listener with closed := true } }

/-- A new AgentClient is entered, and `open_tunnel` gets its connection. -/
def aenter (number : Nat) (call : Call) (token : Option (List UInt8)) (dialled : Except String Unit) :
    Station Key Pin :=
  match s.clients.get? number with
  | some _ => s
  | none =>
    match getConnection asyncssh s.pool call dialled with
    | (.error _, pool) => { s with pool }.setStage number ⟨call, token, .over⟩ .over
    | (.ok conn, pool) => { s with pool }.setStage number ⟨call, token, .over⟩ (.forwarding conn)

def forwarded (number : Nat) (outcome : Except String Unit) : Station Key Pin :=
  match s.clients.get? number with
  | none => s
  | some client =>
    match client.stage, outcome with
    | .forwarding conn, .ok () =>
      { s with listeners := s.listeners ++ [Listener.mk conn false] }.setStage number client (.locking s.listeners.length)
    | .forwarding _, .error _ => s.setStage number client .over
    | _, _ => s

/-- `open_tunnel` has the lock and returns. Where `__aenter__` raises after that, `__aexit__` is not
called. -/
def tracked (number : Nat) (http : Http) (requestId : Option String) : Station Key Pin :=
  match s.clients.get? number with
  | none => s
  | some client =>
    match client.stage with
    | .locking listener =>
      let s := { s with pool := track s.pool client.call.target listener, returned := s.returned ++ [listener] }
      match enters http client.agentTokenEncrypted requestId with
      | .ok () => s.setStage number client (.inside listener)
      | .error _ => s.setStage number client .over
    | _ => s

def cancelled (number : Nat) : Station Key Pin :=
  match s.clients.get? number with
  | none => s
  | some client =>
    match client.stage with
    | .forwarding _ | .locking _ => s.setStage number client .over
    | .inside _ | .over => s

/-- `__aexit__`, after the body has returned or raised. `aclosed` is how `aclose` of the HTTP client
ends; where it raises, the listener is not reached. -/
def aexit (number : Nat) (aclosed : Except String Unit) : Station Key Pin :=
  match s.clients.get? number with
  | none => s
  | some client =>
    match client.stage, aclosed with
    | .inside listener, .ok () => (s.closeListener listener).setStage number client .over
    | .inside _, .error _ => s.setStage number client .over
    | _, _ => s

end Station

inductive Event where
  | aenter (number : Nat) (call : Call) (token : Option (List UInt8)) (dialled : Except String Unit)
  | forwarded (number : Nat) (outcome : Except String Unit)
  | tracked (number : Nat) (http : Http) (requestId : Option String)
  | cancelled (number : Nat)
  /-- The connection that `ensure_agent_running` asks for in a body. -/
  | getConnection (call : Call) (dialled : Except String Unit)
  | aexit (number : Nat) (aclosed : Except String Unit)
  /-- `close` of the pool has taken an entry out; what it closes is closed later. -/
  | close (target : Target)
  | connectionClosed (conn : Nat)
  | listenerClosed (listener : Nat)

def step (asyncssh : Asyncssh Key Pin) (s : Station Key Pin) : Event → Station Key Pin
  | .aenter number call token dialled => s.aenter asyncssh number call token dialled
  | .forwarded number outcome => s.forwarded number outcome
  | .tracked number http requestId => s.tracked number http requestId
  | .cancelled number => s.cancelled number
  | .getConnection call dialled => { s with pool := (Ssh.getConnection asyncssh s.pool call dialled).2 }
  | .aexit number aclosed => s.aexit number aclosed
  | .close target => { s with pool := Ssh.close s.pool target }
  | .connectionClosed conn => { s with pool := Ssh.closed s.pool conn }
  | .listenerClosed listener => s.closeListener listener

namespace Station
variable (s : Station Key Pin)

def Listed (pool : SSHConnectionPool Key Pin) (listener : Nat) : Prop :=
  ∃ target entry, pool.pool.get? target = some entry ∧ listener ∈ entry.listeners

def Opens (listener : Nat) : Prop := ∃ made, s.listeners[listener]? = some made ∧ made.closed = false

def Closed (listener : Nat) : Prop := ∃ made, s.listeners[listener]? = some made ∧ made.closed = true

def Idle : Prop := ∀ number client, s.clients.get? number = some client → client.stage = .over

/-- Every listener that was returned has been closed, and every entry holds open listeners of its own
connection only. -/
structure Tidy : Prop where
  closed : ∀ listener ∈ s.returned, s.Closed listener
  entries : ∀ target entry, s.pool.pool.get? target = some entry → ∀ listener ∈ entry.listeners,
    ∃ made, s.listeners[listener]? = some made ∧ made.closed = false ∧ made.conn = entry.conn

/-- An AgentClient is inside with the listener, so that its `__aexit__` is still to come. -/
def Owner (listener : Nat) : Prop :=
  ∃ number client, s.clients.get? number = some client ∧ client.stage = .inside listener

/-- Who is open after it was returned, or is in the pool, has an AgentClient to close it. -/
def Owned : Prop := ∀ listener, Listed s.pool listener ∨ (listener ∈ s.returned ∧ s.Opens listener) → s.Owner listener

end Station

open Station

/-- When a client is left, at its exit or by an exception on its way in, its listener is in no entry
any more and is closed, by this exit or before. -/
def Spares (s : Station Key Pin) : Event → Prop
  | .tracked number http requestId => ∀ client listener, s.clients.get? number = some client →
      client.stage = .locking listener → enters http client.agentTokenEncrypted requestId ≠ .ok () →
        s.pool.pool.get? client.call.target = none ∧ ¬ s.Opens listener
  | .aexit number aclosed => ∀ client listener, s.clients.get? number = some client →
      client.stage = .inside listener → ¬ Listed s.pool listener ∧ (aclosed = .ok () ∨ ¬ s.Opens listener)
  | .aenter .. | .forwarded .. | .cancelled _ | .getConnection .. | .close _ | .connectionClosed _
  | .listenerClosed _ => True

variable {asyncssh : Asyncssh Key Pin} {s : Station Key Pin}

/-! ## What an event does -/

def Stage.Holds (stage : Stage) (listener : Nat) : Prop := stage = .locking listener ∨ stage = .inside listener

inductive Calm (s : Station Key Pin) : Station Key Pin → Prop where
  | unchanged : Calm s s
  | pooled {pool : SSHConnectionPool Key Pin} : (∀ listener, Listed pool listener → Listed s.pool listener) →
      Calm s { s with pool }
  | began {number : Nat} {client : AgentClient} {stage : Stage} {pool : SSHConnectionPool Key Pin} :
      (∀ listener, Listed pool listener → Listed s.pool listener) → s.clients.get? number = none →
      (∀ listener, ¬ stage.Holds listener) → Calm s ({ s with pool }.setStage number client stage)
  | forwarded {number conn : Nat} {client : AgentClient} : s.clients.get? number = some client →
      client.stage = .forwarding conn →
      Calm s ({ s with listeners := s.listeners ++ [Listener.mk conn false] }.setStage number client
        (.locking s.listeners.length))
  | left {number : Nat} {client : AgentClient} : s.clients.get? number = some client →
      (∀ listener, client.stage ≠ .inside listener) → Calm s (s.setStage number client .over)
  | entered {number listener : Nat} {client : AgentClient} : s.clients.get? number = some client →
      client.stage = .locking listener →
      Calm s ({ s with pool := track s.pool client.call.target listener, returned := s.returned ++ [listener] }.setStage
        number client (.inside listener))
  | closed {listener : Nat} : Calm s (s.closeListener listener)

inductive Moved (s : Station Key Pin) : Event → Station Key Pin → Prop where
  | calm {event : Event} {after : Station Key Pin} : Spares s event → Calm s after → Moved s event after
  | refused {number listener : Nat} {http : Http} {requestId : Option String} {client : AgentClient} :
      s.clients.get? number = some client → client.stage = .locking listener →
      enters http client.agentTokenEncrypted requestId ≠ .ok () →
      Moved s (.tracked number http requestId)
        ({ s with pool := track s.pool client.call.target listener, returned := s.returned ++ [listener] }.setStage
          number client .over)
  | exited {number listener : Nat} {client : AgentClient} : s.clients.get? number = some client →
      client.stage = .inside listener →
      Moved s (.aexit number (.ok ())) ((s.closeListener listener).setStage number client .over)
  | stuck {number listener : Nat} {client : AgentClient} {e : String} : s.clients.get? number = some client →
      client.stage = .inside listener → Moved s (.aexit number (.error e)) (s.setStage number client .over)

theorem listed_getConnection {call : Call} {dialled : Except String Unit} {listener : Nat}
    (listed : Listed (Ssh.getConnection asyncssh s.pool call dialled).2 listener) : Listed s.pool listener := by
  rw [Ssh.getConnection] at listed
  split at listed
  · exact listed
  obtain ⟨e, failed⟩ | ⟨connection, _, _, made⟩ :
      (∃ e, Ssh.connect asyncssh s.pool call dialled = (.error e, s.pool)) ∨ _ := connect_cases call dialled
  · rw [failed] at listed
    exact listed
  · rw [made] at listed
    obtain ⟨target, entry, get, member⟩ := listed
    -- The new entry of the target holds no listeners.
    rw [Dict.get?_set] at get
    split_ifs at get
    · cases get
      cases member
    · exact ⟨target, entry, get, member⟩

theorem listed_close {target : Target} {listener : Nat} (listed : Listed (Ssh.close s.pool target) listener) :
    Listed s.pool listener := by
  obtain ⟨other, entry, get, member⟩ := listed
  simp only [Ssh.close, Dict.get?_pop] at get
  split_ifs at get
  exact ⟨other, entry, get, member⟩

theorem aenter_calm (number : Nat) (call : Call) (token : Option (List UInt8)) (dialled : Except String Unit) :
    Calm s (s.aenter asyncssh number call token dialled) := by
  unfold aenter
  split
  · exact .unchanged
  next free =>
    have fewer (listener : Nat) : Listed (Ssh.getConnection asyncssh s.pool call dialled).2 listener → Listed s.pool listener :=
      listed_getConnection
    generalize Ssh.getConnection asyncssh s.pool call dialled = got at fewer
    obtain ⟨_ | conn, pool⟩ := got
    · exact .began fewer free fun listener holds => by cases holds <;> contradiction
    · exact .began fewer free fun listener holds => by cases holds <;> contradiction

theorem step_moved (asyncssh : Asyncssh Key Pin) (s : Station Key Pin) (event : Event) :
    Moved s event (step asyncssh s event) := by
  cases event with
  | aenter number call token dialled => exact .calm trivial (aenter_calm number call token dialled)
  | forwarded number outcome =>
    refine .calm trivial ?_
    simp only [step, Station.forwarded]
    split
    · exact .unchanged
    next client found =>
      split
      next stage => exact .forwarded found stage
      next stage => exact .left found (by simp [stage])
      next => exact .unchanged
  | tracked number http requestId =>
    simp only [step, Station.tracked]
    split
    next missing => exact .calm (fun client listener found => by simp [missing] at found) .unchanged
    next client found =>
      split
      next listener stage =>
        split
        next enters =>
          refine .calm ?_ (.entered found stage)
          intro other _ same _ fails
          cases found.symm.trans same
          exact absurd enters fails
        next e fails => exact .refused found stage (by simp [fails])
      next other =>
        -- the client does not wait for the lock
        refine .calm ?_ .unchanged
        intro _ listener same stage
        cases found.symm.trans same
        exact absurd stage (other listener)
  | cancelled number =>
    refine .calm trivial ?_
    simp only [step, Station.cancelled]
    split
    · exact .unchanged
    next client found =>
      split
      next stage => exact .left found (by simp [stage])
      next stage => exact .left found (by simp [stage])
      all_goals exact .unchanged
  | getConnection call dialled => exact .calm trivial (.pooled fun _ => listed_getConnection)
  | aexit number aclosed =>
    simp only [step, Station.aexit]
    split
    next missing => exact .calm (fun client listener found => by simp [missing] at found) .unchanged
    next client found =>
      cases stage : client.stage with
      | inside listener =>
        cases aclosed with
        | ok => exact .exited found stage
        | error e => exact .stuck found stage
      | _ =>
        refine .calm ?_ .unchanged
        intro _ listener same inside
        cases found.symm.trans same
        cases stage.symm.trans inside
  | close target => exact .calm trivial (.pooled fun _ => listed_close)
  | connectionClosed conn => exact .calm trivial (.pooled fun _ => id)
  | listenerClosed listener => exact .calm trivial .closed

/-! ## Who holds a listener -/

structure Sound (s : Station Key Pin) : Prop where
  held : ∀ number client listener, s.clients.get? number = some client → client.stage.Holds listener →
    listener < s.listeners.length
  alone : ∀ number other client others listener, s.clients.get? number = some client →
    s.clients.get? other = some others → client.stage.Holds listener → others.stage.Holds listener → number = other
  returned : ∀ listener ∈ s.returned, listener < s.listeners.length
  inside : ∀ number client listener, s.clients.get? number = some client → client.stage = .inside listener →
    listener ∈ s.returned

section
variable {number : Nat} {client : AgentClient} {stage : Stage} {after : Station Key Pin}

@[simp] theorem pool_setStage : (s.setStage number client stage).pool = s.pool := rfl
@[simp] theorem listeners_setStage : (s.setStage number client stage).listeners = s.listeners := rfl
@[simp] theorem returned_setStage : (s.setStage number client stage).returned = s.returned := rfl

theorem get?_setStage (other : Nat) : (s.setStage number client stage).clients.get? other =
    if other = number then some { client with stage } else s.clients.get? other := Dict.get?_set _ _ _ _

@[simp] theorem pool_closeListener (listener : Nat) : (s.closeListener listener).pool = s.pool := rfl
@[simp] theorem returned_closeListener (listener : Nat) : (s.closeListener listener).returned = s.returned := rfl
@[simp] theorem clients_closeListener (listener : Nat) : (s.closeListener listener).clients = s.clients := rfl

@[simp] theorem length_closeListener (listener : Nat) :
    (s.closeListener listener).listeners.length = s.listeners.length := List.length_modify _ _ _

theorem sound_setStage {before : Station Key Pin} (sound : Sound before) (clients : s.clients = before.clients)
    (longer : before.listeners.length ≤ s.listeners.length)
    (returned : ∀ listener ∈ s.returned, listener < s.listeners.length)
    (kept : ∀ listener ∈ before.returned, listener ∈ s.returned)
    (entered : ∀ listener, stage = .inside listener → listener ∈ s.returned)
    (holds : ∀ listener, stage.Holds listener →
      (before.clients.get? number = some client ∧ client.stage.Holds listener) ∨
        (before.listeners.length ≤ listener ∧ listener < s.listeners.length)) :
    Sound (s.setStage number client stage) := by
  have new (listener : Nat) (holding : stage.Holds listener) (other : Nat) (others : AgentClient)
      (found : before.clients.get? other = some others) (theirs : others.stage.Holds listener) : other = number := by
    rcases holds listener holding with ⟨own, was⟩ | ⟨fresh, -⟩
    · exact sound.alone other number others client listener found own theirs was
    · have old := sound.held other others listener found theirs
      omega
  constructor
  · intro other found listener get holding
    rw [get?_setStage, clients] at get
    rw [listeners_setStage]
    split_ifs at get
    · cases get
      rcases holds listener holding with ⟨own, was⟩ | ⟨-, below⟩
      · have := sound.held number client listener own was
        omega
      · exact below
    · have := sound.held other found listener get holding
      omega
  · intro one two first second listener getOne getTwo holdsOne holdsTwo
    rw [get?_setStage, clients] at getOne getTwo
    split_ifs at getOne getTwo with sameOne sameTwo sameTwo
    · rw [sameOne, sameTwo]
    · cases getOne
      rw [sameOne, new listener holdsOne two second getTwo holdsTwo]
    · cases getTwo
      rw [sameTwo, new listener holdsTwo one first getOne holdsOne]
    · exact sound.alone one two first second listener getOne getTwo holdsOne holdsTwo
  · exact returned
  · intro other found listener get inside
    rw [get?_setStage, clients] at get
    split_ifs at get
    · cases get
      exact entered listener inside
    · exact kept listener (sound.inside other found listener get inside)

theorem Sound.same (sound : Sound s) (clients : after.clients = s.clients)
    (length : after.listeners.length = s.listeners.length) (returned : after.returned = s.returned) : Sound after := by
  constructor
  · rw [clients, length]
    exact sound.held
  · rw [clients]
    exact sound.alone
  · rw [returned, length]
    exact sound.returned
  · rw [clients, returned]
    exact sound.inside

theorem returned_append (sound : Sound s) {listener : Nat} (found : s.clients.get? number = some client)
    (locking : client.stage = .locking listener) :
    ∀ other ∈ s.returned ++ [listener], other < s.listeners.length := by
  intro other member
  rcases List.mem_append.mp member with earlier | last
  · exact sound.returned other earlier
  · cases List.mem_singleton.mp last
    exact sound.held number client listener found (.inl locking)

theorem sound_calm (sound : Sound s) (calm : Calm s after) : Sound after := by
  cases calm with
  | unchanged => exact sound
  | pooled => exact sound.same rfl rfl rfl
  | closed => exact sound.same rfl (length_closeListener _) rfl
  | began _ _ nothing =>
    apply sound_setStage sound
    · rfl
    · exact Nat.le_refl _
    · exact sound.returned
    · exact fun _ => id
    · exact fun listener inside => absurd (.inr inside) (nothing listener)
    · exact fun listener holding => absurd holding (nothing listener)
  | @forwarded number conn client found forwards =>
    -- the number of the new listener is above all that were returned
    have length : (s.listeners ++ [Listener.mk conn false]).length = s.listeners.length + 1 := by simp
    apply sound_setStage sound
    · rfl
    · rw [length]
      omega
    · intro listener member
      have := sound.returned listener member
      rw [length]
      omega
    · exact fun _ => id
    · nofun
    · rintro listener (same | same)
      · cases same
        right
        rw [length]
        omega
      · cases same
  | left found =>
    apply sound_setStage sound
    · rfl
    · exact Nat.le_refl _
    · exact sound.returned
    · exact fun _ => id
    · nofun
    · rintro listener (same | same) <;> cases same
  | entered found locking =>
    apply sound_setStage sound
    · rfl
    · exact Nat.le_refl _
    · exact returned_append sound found locking
    · exact fun _ => List.mem_append_left _
    · intro other same
      cases same
      exact List.mem_append_right _ (.head _)
    · rintro listener (same | same)
      · cases same
      · cases same
        exact .inl ⟨found, .inl locking⟩

theorem sound_step (sound : Sound s) (event : Event) : Sound (step asyncssh s event) := by
  have moved := step_moved asyncssh s event
  generalize step asyncssh s event = after at moved
  -- Whoever leaves holds nothing afterwards.
  have nothing (held : Nat) : ¬ Stage.over.Holds held := by rintro (same | same) <;> cases same
  cases moved with
  | calm _ calm => exact sound_calm sound calm
  | refused found locking =>
    apply sound_setStage sound
    · rfl
    · exact Nat.le_refl _
    · exact returned_append sound found locking
    · exact fun _ => List.mem_append_left _
    · nofun
    · exact fun listener holding => absurd holding (nothing listener)
  | exited found =>
    apply sound_setStage sound
    · rfl
    · simp
    · rw [length_closeListener]
      exact sound.returned
    · exact fun _ => id
    · nofun
    · exact fun listener holding => absurd holding (nothing listener)
  | stuck found =>
    apply sound_setStage sound
    · rfl
    · exact Nat.le_refl _
    · exact sound.returned
    · exact fun _ => id
    · exact fun listener inside => absurd (.inr inside) (nothing listener)
    · exact fun listener holding => absurd holding (nothing listener)

end

/-! ## Who closes a listener -/

section
variable {number listener : Nat} {client : AgentClient} {stage : Stage} {after : Station Key Pin}

theorem listed_track {target : Target} {added : Nat} :
    Listed (track s.pool target added) listener ↔
      Listed s.pool listener ∨ (listener = added ∧ s.pool.pool.get? target ≠ none) := by
  unfold track
  cases found : s.pool.pool.get? target with
  | none => simp
  | some entry =>
    have there : ∀ other,
        (s.pool.pool.set target { entry with listeners := entry.listeners ++ [added] }).get? other =
          if other = target then some { entry with listeners := entry.listeners ++ [added] }
          else s.pool.pool.get? other := fun other => Dict.get?_set _ _ _ _
    constructor
    · rintro ⟨other, kept, get, member⟩
      rw [there] at get
      split_ifs at get with same
      · cases get
        rcases List.mem_append.mp member with earlier | last
        · exact .inl ⟨target, entry, found, earlier⟩
        · exact .inr ⟨List.mem_singleton.mp last, Option.some_ne_none entry⟩
      · exact .inl ⟨other, kept, get, member⟩
    · rintro (⟨other, kept, get, member⟩ | ⟨rfl, -⟩)
      · by_cases same : other = target
        · rw [same, found] at get
          cases get
          exact ⟨target, _, (there target).trans (if_pos rfl), List.mem_append_left _ member⟩
        · exact ⟨other, kept, ((there other).trans (if_neg same)).trans get, member⟩
      · exact ⟨target, _, (there target).trans (if_pos rfl), List.mem_append_right _ (.head _)⟩

theorem opens_closeListener {closing : Nat} :
    (s.closeListener closing).Opens listener ↔ s.Opens listener ∧ listener ≠ closing := by
  unfold Opens closeListener
  rw [List.getElem?_modify]
  by_cases same : closing = listener
  · subst same
    cases s.listeners[closing]? <;> simp
  · have apart : listener ≠ closing := fun equal => same equal.symm
    simp [same, apart]

theorem owner_setStage (found : s.clients.get? number = some client) (notIts : client.stage ≠ .inside listener)
    (owner : s.Owner listener) : (s.setStage number client stage).Owner listener := by
  obtain ⟨other, owning, get, inside⟩ := owner
  refine ⟨other, owning, ?_, inside⟩
  rw [get?_setStage, if_neg, get]
  rintro rfl
  cases found.symm.trans get
  exact notIts inside

theorem unowned_of_holds (sound : Sound s) (found : s.clients.get? number = some client)
    (holds : client.stage.Holds listener) (notIts : client.stage ≠ .inside listener) : ¬ s.Owner listener := by
  rintro ⟨other, owning, get, inside⟩
  obtain rfl := sound.alone number other client owning listener found get holds (.inr inside)
  cases found.symm.trans get
  exact notIts inside

theorem unowned_setStage (sound : Sound s) (found : s.clients.get? number = some client)
    (holds : client.stage.Holds listener) : ¬ (s.setStage number client .over).Owner listener := by
  rintro ⟨other, owning, get, inside⟩
  rw [get?_setStage] at get
  split_ifs at get with same
  · cases get
    cases inside
  · exact same (sound.alone number other client owning listener found get holds (.inr inside)).symm

theorem owned_calm (sound : Sound s) (owned : s.Owned) (calm : Calm s after) : after.Owned := by
  cases calm with
  | unchanged => exact owned
  | pooled fewer => exact fun listener kept => owned listener (kept.imp_left (fewer listener))
  | closed =>
    intro listener kept
    exact owned listener (kept.imp_right (And.imp_right fun opens => (opens_closeListener.mp opens).1))
  | @began number client stage pool fewer free =>
    intro listener kept
    obtain ⟨other, owning, get, inside⟩ := owned listener (kept.imp_left (fewer listener))
    refine ⟨other, owning, ?_, inside⟩
    rw [get?_setStage, if_neg]
    · exact get
    · rintro rfl
      cases free.symm.trans get
  | @forwarded number conn client found forwards =>
    intro listener kept
    apply owner_setStage found (by simp [forwards])
    apply owned listener (kept.imp_right _)
    rintro ⟨member, made, there, opens⟩
    -- What was returned before is not the new listener.
    have below := sound.returned listener member
    refine ⟨member, made, ?_, opens⟩
    rwa [listeners_setStage, List.getElem?_append_left below] at there
  | left found outside => exact fun listener kept => owner_setStage found (outside listener) (owned listener kept)
  | @entered number listener client found locking =>
    intro other kept
    by_cases same : other = listener
    · refine ⟨number, { client with stage := .inside listener }, ?_, by rw [same]⟩
      rw [get?_setStage, if_pos rfl]
    · apply owner_setStage (by exact found) (by simp [locking])
      apply owned other
      rcases kept with listed | ⟨member, opens⟩
      · exact .inl ((listed_track.mp listed).resolve_right fun last => same last.1)
      · exact .inr ⟨(List.mem_append.mp member).resolve_right fun last => same (List.mem_singleton.mp last), opens⟩

/-- A step keeps every listener with an AgentClient exactly if it spares them. -/
theorem owned_step (sound : Sound s) (owned : s.Owned) (event : Event) :
    (step asyncssh s event).Owned ↔ Spares s event := by
  have moved := step_moved asyncssh s event
  generalize step asyncssh s event = after at moved
  cases moved with
  | calm spares calm => exact iff_of_true (owned_calm sound owned calm) spares
  | @refused number listener http requestId client found locking fails =>
    -- the listener is in the pool by now, and its client is gone
    have gone : ¬ s.Owner listener := unowned_of_holds sound found (.inl locking) (by simp [locking])
    have unlisted : ¬ Listed s.pool listener := fun listed => gone (owned listener (.inl listed))
    constructor
    · intro after other same get stage _
      cases found.symm.trans get
      cases locking.symm.trans stage
      have lost := unowned_setStage sound found (.inl locking)
      constructor
      · by_contra entry
        exact lost (after listener (.inl (listed_track.mpr (.inr ⟨rfl, entry⟩))))
      · intro opens
        exact lost (after listener (.inr ⟨List.mem_append_right _ (.head _), opens⟩))
    · intro spares
      obtain ⟨entry, closed⟩ := spares client listener found locking fails
      intro other kept
      apply owner_setStage (by exact found) (by simp [locking])
      apply owned other
      rcases kept with listed | ⟨member, opens⟩
      · exact .inl ((listed_track.mp listed).resolve_right fun last => last.2 entry)
      · refine .inr ⟨(List.mem_append.mp member).resolve_right fun last => ?_, opens⟩
        cases List.mem_singleton.mp last
        exact closed opens
  | @exited number listener client found inside =>
    -- the exit closes the listener; only an entry may be left of it
    constructor
    · intro after other same get stage
      cases found.symm.trans get
      cases inside.symm.trans stage
      refine ⟨fun listed => ?_, .inl rfl⟩
      exact unowned_setStage sound found (.inr inside) (after listener (.inl listed))
    · intro spares
      obtain ⟨unlisted, -⟩ := spares client listener found inside
      intro other kept
      have apart : other ≠ listener := by
        rintro rfl
        rcases kept with listed | ⟨-, opens⟩
        · exact unlisted listed
        · exact (opens_closeListener.mp opens).2 rfl
      apply owner_setStage (by exact found) (by simp [inside, apart.symm])
      exact owned other (kept.imp_right (And.imp_right fun opens => (opens_closeListener.mp opens).1))
  | @stuck number listener client e found inside =>
    -- the exit does not come to its listener
    constructor
    · intro after other same get stage
      cases found.symm.trans get
      cases inside.symm.trans stage
      have lost := unowned_setStage sound found (.inr inside)
      refine ⟨fun listed => lost (after listener (.inl listed)), .inr fun opens => ?_⟩
      exact lost (after listener (.inr ⟨sound.inside number client listener found inside, opens⟩))
    · intro spares
      obtain ⟨unlisted, closed⟩ := spares client listener found inside
      intro other kept
      have apart : other ≠ listener := by
        rintro rfl
        rcases kept with listed | ⟨-, opens⟩
        · exact unlisted listed
        · exact closed.elim nofun fun closed => closed opens
      exact owner_setStage found (by simp [inside, apart.symm]) (owned other kept)

end

/-! ## Every run -/

/-- With no AgentClient active, listeners that have one to close them are closed and in no entry. -/
theorem tidy_of_idle (sound : Sound s) (owned : s.Owned) (idle : s.Idle) : s.Tidy := by
  have nobody (listener : Nat) : ¬ s.Owner listener := by
    rintro ⟨number, client, get, inside⟩
    cases (idle number client get).symm.trans inside
  constructor
  · intro listener member
    have made := List.getElem?_eq_getElem (sound.returned listener member)
    refine ⟨_, made, ?_⟩
    by_contra opens
    exact nobody listener (owned listener (.inr ⟨member, _, made, by simpa using opens⟩))
  · intro target entry get listener member
    exact absurd (owned listener (.inl ⟨target, entry, get, member⟩)) (nobody listener)

theorem sound_start : Sound (start : Station Key Pin) := ⟨nofun, nofun, nofun, nofun⟩

theorem owned_start : (start : Station Key Pin).Owned := by
  rintro listener (⟨target, entry, get, _⟩ | ⟨member, _⟩)
  · cases get
  · cases member

/-- In every run: every listener that is pooled, or open after it was returned, has an AgentClient
inside to close it, in every state reached, exactly if every step spares the listeners. Then all is
tidy whenever no AgentClient is active. -/
theorem tunnels_do_not_leak (asyncssh : Asyncssh Key Pin) (events : List Event) :
    Runs.Meets (step asyncssh) Spares start events ↔
      ∀ before after, events = before ++ after →
        (Runs.run (step asyncssh) start before).Owned ∧
          ((Runs.run (step asyncssh) start before).Idle → (Runs.run (step asyncssh) start before).Tidy) := by
  have exact (s : Station Key Pin) (event : Event) (held : Sound s ∧ s.Owned) :
      Sound (step asyncssh s event) ∧ (step asyncssh s event).Owned ↔ Spares s event := by
    rw [owned_step held.1 held.2 event]
    exact and_iff_right (sound_step held.1 event)
  have sound (before : List Event) : Sound (Runs.run (step asyncssh) start before) :=
    Runs.invariant_run_of_forall Sound (fun _ event held => sound_step held event) sound_start before
  rw [Runs.meets_iff_reached (fun s => Sound s ∧ s.Owned) exact ⟨sound_start, owned_start⟩]
  constructor
  · intro reached before after split
    obtain ⟨held, owned⟩ := reached before after split
    exact ⟨owned, tidy_of_idle held owned⟩
  · intro reached before after split
    exact ⟨sound before, (reached before after split).1⟩

/-! ## One client, and a token that cannot be decrypted -/

instance : Decidable s.Idle :=
  decidable_of_iff (∀ entry ∈ s.clients.entries, entry.2.stage = .over)
    ⟨fun each number client get => each (number, client) (Dict.mem_of_get? get),
      fun idle entry member => idle entry.1 entry.2 (Dict.get?_of_mem member)⟩

def foreignKey : Http := ⟨fun _ => .error "InvalidTag", fun _ => .ok ()⟩

/-- A machine without a token is used once, and its client exits as it should. -/
def usedOnce : List Event :=
  [.aenter 1 legacyCall none (.ok ()), .forwarded 1 (.ok ()), .tracked 1 foreignKey none, .aexit 1 (.ok ())]

/-- The token of the machine was encrypted with another master key. -/
def tokenUnreadable : List Event :=
  [.aenter 1 legacyCall (some [7]) (.ok ()), .forwarded 1 (.ok ()), .tracked 1 foreignKey none]

/-- After one use the entry lists a closed listener; after an exception on the way in the listener
stays open. -/
theorem tunnels_leak :
    (Runs.run (step plainKeys) start usedOnce).Idle ∧ ¬ (Runs.run (step plainKeys) start usedOnce).Tidy ∧
      (Runs.run (step plainKeys) start tokenUnreadable).Idle ∧
        ¬ ∀ listener ∈ (Runs.run (step plainKeys) start tokenUnreadable).returned,
          (Runs.run (step plainKeys) start tokenUnreadable).Closed listener := by
  refine ⟨by decide +kernel, ?_, by decide +kernel, ?_⟩
  · intro tidy
    obtain ⟨made, there, opens, _⟩ := tidy.entries legacyCall.target ⟨0, [0]⟩ rfl 0 (.head _)
    cases there
    cases opens
  · intro closed
    obtain ⟨made, there, shut⟩ := closed 0 (.head _)
    cases there
    cases shut

end Csl.Server.Ssh.Tunnels
