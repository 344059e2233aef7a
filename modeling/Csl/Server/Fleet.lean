import Csl.Agent.Approvals.Vouched
import Csl.Library.Knowledge
import Csl.Server.Jobs.ResolvedVersion
import Csl.Server.Web.Badges

/-! The control station over all its target machines.

Handlers run at the same time, each cut at its awaits, and reach the agents through tunnels of their
own. Administrators edit the library, owners work at their command lines, agents restart with the
auto-approve list their configuration has by then, and requests and answers get lost.
-/

set_option autoImplicit false

namespace Csl.Server
open Csl.Shared Csl.Agent Vouching

namespace Submission

def user : Submission → User
  | json user .. | web user .. => user

def machineId : Submission → Nat
  | json _ machineId .. | web _ machineId .. => machineId

def scriptName : Submission → String
  | json _ _ body _ => body.scriptName
  | web _ _ scriptName .. => scriptName

end Submission

namespace Fleets

/-- A target machine: the installation that its agent and its owner share, what the agent has launched,
and the auto-approve list it started with. -/
structure Target where
  shared : Sharing.Shared
  launched : List Launch
  autoApprove : List String

/-- What is in no one's hands: how the awaits of the next call come out. -/
structure Network where
  connects : Except Failure Unit
  closes : Except Failure Unit
  wakes : Except Failure Unit
  /-- Whether a request reaches the agent, and whether the answer comes back. -/
  reaches : Bool
  returns : Bool
  trouble : TransportError
  stream : LogStream

structure Fleet (platform : Platform) (Place : Type) where
  tables : Tables platform
  targets : Place → Target
  /-- The machine that each handler has a tunnel to. -/
  tunnels : Nat → Option Machine
  network : Network
  now : Timestamp

def Fleet.put {platform : Platform} {Place : Type} [DecidableEq Place] (s : Fleet platform Place) (name : Place)
    (target : Target) : Fleet platform Place :=
  { s with targets := Function.update s.targets name target }

namespace Target

def world (target : Target) (now : Timestamp) : World :=
  ⟨target.shared.memory .agent, target.shared.disk, now, target.launched⟩

def left (target : Target) (w : World) : Target :=
  { target with shared := Vouching.left target.shared .agent w, launched := w.launched }

def serve (platform : Platform) (now : Timestamp) (request : Request) (target : Target) : Response × Target :=
  let ends := platform.host.run (answer platform (fun _ => target.autoApprove) request) (target.world now)
  (respond request ends.1, target.left ends.2)

def call (host : Host) (now : Timestamp) (party : Sharing.Party) (call : Sharing.Call) (target : Target) : Target :=
  { target with shared := Sharing.serve host (fun _ => target.autoApprove) target.shared ⟨now, party, call⟩ }

def restarted (host : Host) (now : Timestamp) (autoApprove : List String) (target : Target) : Target :=
  ({ target with autoApprove }).call host now .agent .construct

end Target

/-! ## The handlers -/

inductive Visit where
  | submit (submission : Submission)
  | restage (user : User) (machineId : Nat) (scriptName : String)
  | stateBadge (user : User) (machineId : Nat) (scriptName : String)
  | syncStates (user : User) (machineId : Nat) (staged : List Script)

def Visit.task (platform : Platform) : Visit → Task Unit
  | submit submission => do
      let _ ← submission.handler platform
  | restage user machineId scriptName => do
      let _ ← Web.restage user machineId scriptName
  | stateBadge user machineId scriptName => do
      let _ ← Web.scriptStateBadge user machineId scriptName
  | syncStates user machineId staged => Web.syncStates user machineId staged

section
variable (platform : Platform) {Place : Type} [DecidableEq Place] (place : Machine → Place)

/-- A request through a tunnel, unless it gets lost on its way or its answer on the way back. -/
def deliver (name : Place) (request : Request) (s : Fleet platform Place) :
    Except Failure Response × Fleet platform Place :=
  if s.network.reaches then
    let served := (s.targets name).serve platform s.now request
    (if s.network.returns then .ok served.1 else .error (.transport s.network.trouble),
      s.put name served.2)
  else (.error (.transport s.network.trouble), s)

def handle (number : Nat) : Handler Op Reply Failure (Fleet platform Place)
  | .query statement, s =>
      let ran := statement.run s.now s.tables
      (.ok ran.1, { s with tables := ran.2 })
  | .utcNow, s => (.ok s.now, s)
  | .openTunnel machine, s =>
      (s.network.connects, match s.network.connects with
        | .ok () => { s with tunnels := Function.update s.tunnels number (some machine) }
        | .error _ => s)
  | .closeTunnel, s => (s.network.closes, { s with tunnels := Function.update s.tunnels number none })
  | .ensureAgentRunning, s => (s.network.wakes, s)
  | .send request, s =>
      match s.tunnels number with
      | some machine => deliver platform (place machine) request s
      | none => (.error (.transport s.network.trouble), s)
  | .streamLogs _, s => (.ok s.network.stream, s)

/-! ## What else happens -/

inductive Change (platform : Platform) (Place : Type) where
  | clock (now : Timestamp)
  | network (network : Network)
  | edit (edit : Edit)
  /-- Requests that leave the agents' approvals and launches alone change the other tables. -/
  | others (tables : Tables platform)
  | owner (name : Place) (call : OwnerCall)
  | restart (name : Place) (autoApprove : List String)

def outside : Change platform Place → Fleet platform Place → Fleet platform Place
  | .clock now, s => { s with now }
  | .network network, s => { s with network }
  | .edit edit, s => { s with tables := edit.apply platform s.now s.tables }
  | .others tables, s => { s with tables := { tables with scripts := s.tables.scripts } }
  | .owner name call, s =>
      s.put name ((s.targets name).call platform.host s.now .cli call.call)
  | .restart name autoApprove, s =>
      s.put name ((s.targets name).restarted platform.host s.now autoApprove)

abbrev Scene (platform : Platform) (Place : Type) := Proc.Pool Op Reply Failure Unit (Fleet platform Place)

abbrev step (visits : Nat → Visit) (scene : Scene platform Place) (turn : Proc.Turn (Change platform Place)) :
    Scene platform Place :=
  scene.step (fun number => (visits number).task platform) (handle platform place) (outside platform) turn

def start (tables : Tables platform) (autoApprove : Place → List String) (network : Network) (now : Timestamp) :
    Scene platform Place :=
  .empty ⟨tables, fun name => ⟨Sharing.fresh, [], autoApprove name⟩, fun _ => none, network, now⟩

abbrev reached (visits : Nat → Visit) (begin : Scene platform Place) (turns : List (Proc.Turn (Change platform Place))) :
    Scene platform Place := Runs.run (step platform place visits) begin turns

end

end Fleets

end Csl.Server
