import Csl.Agent.Approvals.Mutations
import Csl.Agent.Cli.Approvals
import Csl.Agent.Installation

/-! What the owner approves is what the owner read.

The agent serves stage requests for one script while the owner displays and
approves it from the command line. An approve command names the script and
nothing else, so it promotes what is pending when it runs: the displayed content,
provided that nothing was staged between the two commands.
-/

set_option autoImplicit false

namespace Csl.Agent
open Csl.Shared ApprovalsManager Runs Installation

namespace Review

inductive Request where
  | stage (content md5 : String) (metaYaml : Option String)
  | show
  | diff
  | approve
  deriving DecidableEq, Repr

abbrev Event := Timestamp × Request

/-- The agent's manager and the files, and beside them what the last successful show or diff
displayed and whether a stage has taken effect since. -/
structure State where
  agent : Memory
  disk : Disk
  displayed : Option String
  restaged : Bool

def State.process (s : State) (now : Timestamp) : World := ⟨World.fresh.memory, s.disk, now, []⟩

def State.agentWorld (s : State) (now : Timestamp) : World := ⟨s.agent, s.disk, now, []⟩

variable (host : Host) (autoApprove : List String) (name : String)

def State.display {A : Type} (s : State) : Except Err A → State
  | .ok _ => { s with displayed := s.disk.text? host (.pending name), restaged := false }
  | .error _ => s

def serve (s : State) (event : Event) : State :=
  match event.2 with
  | .stage content md5 metaYaml =>
    let staging : Mutation := .stage name content md5 metaYaml
    let after := (host.run (staging.action host autoApprove) (s.agentWorld event.1)).2
    let effective := decide (staging.Effective host (s.agentWorld event.1))
    { s with agent := after.memory, disk := after.disk, restaged := s.restaged || effective }
  | .show => s.display host name (host.run (cmdApprovalsShow host name) (s.process event.1)).1
  | .diff => s.display host name (host.run (cmdApprovalsDiff host name) (s.process event.1)).1
  | .approve =>
    { s with disk := (host.run (cmdApprovalsApprove host name) (s.process event.1)).2.disk }

def fresh : State := ⟨World.fresh.memory, World.fresh.disk, none, false⟩

/-- An approve that succeeds after a display promotes the displayed content under its md5. -/
def ApprovesDisplayed (s : State) (event : Event) : Prop :=
  event.2 = .approve → (host.run (cmdApprovalsApprove host name) (s.process event.1)).1 = .ok () →
    ∀ content, s.displayed = some content →
      (serve host autoApprove name s event).disk.text? host (.scripts name) = some content ∧
        (((serve host autoApprove name s event).disk.loaded host).scripts.get? name).bind
          (·.approvedMd5) = some (host.md5 content)

/-- Versions are staged under their own md5, and no stage has taken effect between the last
display and an approve. -/
def Undisturbed (s : State) (event : Event) : Prop :=
  match event.2 with
  | .stage content md5 _ => md5 = host.md5 content
  | .approve => s.displayed.isSome → s.restaged = false
  | .show | .diff => True

instance (s : State) (event : Event) : Decidable (Undisturbed host s event) := by
  obtain ⟨_, request⟩ := event
  cases request <;> unfold Undisturbed <;> infer_instance

/-- A waiting version is the one staged under its md5, and the displayed one when nothing
was staged since. -/
structure Tracks (s : State) : Prop where
  waiting : Waiting ((s.disk.loaded host).stateOf name) →
    ∃ content, s.disk.text? host (.pending name) = some content ∧
      ((s.disk.loaded host).scripts.get? name).bind (·.pendingMd5) = some (host.md5 content)
  shown : ∀ content, s.displayed = some content → s.restaged = false →
    Waiting ((s.disk.loaded host).stateOf name) → s.disk.text? host (.pending name) = some content

variable {host autoApprove name} {s : State}

theorem tracks_fresh : Tracks host name fresh := by
  have absent : ¬ Waiting ((fresh.disk.loaded host).stateOf name) := by
    rintro (state | state) <;> cases state
  exact ⟨fun waiting => absurd waiting absent, fun _ _ _ waiting => absurd waiting absent⟩

theorem tracks_display {A : Type} (tracks : Tracks host name s) (result : Except Err A) :
    Tracks host name (s.display host name result) := by
  cases result with
  | error e => exact tracks
  | ok a => exact ⟨tracks.waiting, fun content displayed _ _ => displayed⟩

theorem serve_stage_effective (autoApprove : List String) {now : Timestamp} {content md5 : String} {metaYaml : Option String}
    (effective : (Mutation.stage name content md5 metaYaml).Effective host (s.agentWorld now))
    (manual : name ∉ autoApprove) :
    let after := serve host autoApprove name s (now, .stage content md5 metaYaml)
    (after.displayed = s.displayed ∧ after.restaged = true) ∧
      after.disk.loaded host = after.agent.store ∧
      after.agent.store.scripts.get? name =
        some (stagedRecord false ((s.agentWorld now).record name) md5 now) ∧
      after.disk.text? host (.pending name) = some content := by
  simp only [serve]
  rw [Mutation.run_effective effective, decide_eq_true effective]
  refine ⟨⟨trivial, Bool.or_true _⟩, Disk.loaded_saved _, ?_, ?_⟩
  · simp [World.saved, Mutation.newStore, manual, State.agentWorld]
  · simp [World.saved, Mutation.finished, manual, Disk.text?_staged]

/-- A stage either changes nothing or leaves the version it was given, waiting or approved. -/
theorem tracks_stage (tracks : Tracks host name s) (now : Timestamp) (content : String)
    (metaYaml : Option String) :
    Tracks host name
      (serve host autoApprove name s (now, .stage content (host.md5 content) metaYaml)) := by
  let staging : Mutation := .stage name content (host.md5 content) metaYaml
  by_cases effective : staging.Effective host (s.agentWorld now)
  · by_cases auto : name ∈ autoApprove
    · have settled : ¬ Waiting (((serve host autoApprove name s
          (now, .stage content (host.md5 content) metaYaml)).disk.loaded host).stateOf name) := by
        simp only [serve]
        rw [Mutation.run_effective effective]
        simp [World.saved, staging, Mutation.newStore, auto, ApprovalsStore.stateOf, stagedRecord,
          Waiting]
      exact ⟨fun waiting => absurd waiting settled, fun _ _ _ waiting => absurd waiting settled⟩
    · obtain ⟨⟨_, restaged⟩, loaded, record, text⟩ :=
        serve_stage_effective autoApprove effective auto
      refine ⟨fun waiting => ⟨content, text, ?_⟩, fun _ _ calm => ?_⟩
      · rw [loaded, ApprovalsStore.stateOf_of_get? record] at waiting
        rw [loaded, record]
        exact (stagedRecord_waiting waiting).2
      · rw [restaged] at calm
        cases calm
  · have same := (staging.run_cases autoApprove (s.agentWorld now)).resolve_right effective
    simp only [serve]
    rw [same, decide_eq_false effective, Bool.or_false]
    exact tracks

theorem serve_approve_effective (autoApprove : List String) {s : State} {now : Timestamp}
    (effective : (Mutation.approve name).Effective host ((s.process now).opened host)) :
    (host.run (cmdApprovalsApprove host name) (s.process now)).1 = .ok () ∧
      (serve host autoApprove name s (now, .approve)).disk =
        (s.disk.promoted host name).saved host
          ((Mutation.approve name).newStore autoApprove ((s.process now).opened host)) := by
  obtain ⟨world, succeeds⟩ := run_approvalExit (s.process now) (ApprovalsManager.approve host name)
  have called := @Mutation.run_effective host autoApprove _ _ effective
  rw [Mutation.action] at called
  refine ⟨succeeds.mpr ?_, ?_⟩
  · rw [called]
  · simp only [serve, cmdApprovalsApprove]
    rw [world, called]
    rfl

theorem serve_approve (autoApprove : List String) (s : State) (now : Timestamp) :
    (host.run (cmdApprovalsApprove host name) (s.process now)).1 ≠ .ok () ∧
        (serve host autoApprove name s (now, .approve)).disk = s.disk ∨
      (Mutation.approve name).Effective host ((s.process now).opened host) := by
  obtain ⟨world, succeeds⟩ := run_approvalExit (s.process now) (ApprovalsManager.approve host name)
  have ends := (Mutation.approve name).outcome host autoApprove ((s.process now).opened host)
  simp only [serve, cmdApprovalsApprove]
  rw [world, Ne, succeeds]
  rw [Mutation.action] at ends
  generalize host.run (ApprovalsManager.approve host name) ((s.process now).opened host) =
    result at ends
  cases ends with
  | refused => exact .inl ⟨by simp, rfl⟩
  | approved found waiting present =>
    refine .inr ⟨⟨_, found, waiting⟩, ?_⟩
    rwa [Disk.isSome_text?]

theorem tracks_approve (tracks : Tracks host name s) (now : Timestamp) :
    Tracks host name (serve host autoApprove name s (now, .approve)) := by
  rcases serve_approve autoApprove s now with ⟨_, same⟩ | effective
  · have kept : serve host autoApprove name s (now, .approve) = s := congrArg
      (fun disk => { s with disk }) same
    rwa [kept]
  · have settled : ¬ Waiting (((serve host autoApprove name s (now, .approve)).disk.loaded
        host).stateOf name) := by
      rw [(serve_approve_effective autoApprove effective).2, Disk.loaded_saved]
      simp [Mutation.newStore, ApprovalsStore.stateOf, Waiting]
    exact ⟨fun waiting => absurd waiting settled, fun _ _ _ waiting => absurd waiting settled⟩

theorem tracks_serve (tracks : Tracks host name s) (event : Event)
    (undisturbed : Undisturbed host s event) :
    Tracks host name (serve host autoApprove name s event) := by
  obtain ⟨now, request⟩ := event
  cases request with
  | stage content md5 metaYaml =>
    have own : md5 = host.md5 content := undisturbed
    subst own
    exact tracks_stage tracks now content metaYaml
  | approve => exact tracks_approve tracks now
  | _ => exact tracks_display tracks _

theorem approves_displayed (tracks : Tracks host name s) (event : Event)
    (undisturbed : Undisturbed host s event) : ApprovesDisplayed host autoApprove name s event := by
  obtain ⟨now, request⟩ := event
  rintro rfl succeeds content displayed
  have calm : s.restaged = false := undisturbed (by rw [displayed]; rfl)
  rcases serve_approve autoApprove s now with ⟨failed, _⟩ | effective
  · exact absurd succeeds failed
  · have ⟨⟨record, found, waiting⟩, _⟩ := effective
    have stored : (s.disk.loaded host).scripts.get? name = some record := found
    have waits : Waiting ((s.disk.loaded host).stateOf name) := by
      rwa [ApprovalsStore.stateOf_of_get? stored]
    obtain ⟨pending, text, md5⟩ := tracks.waiting waits
    have shown := tracks.shown content displayed calm waits
    obtain rfl : pending = content := Option.some.inj (text.symm.trans shown)
    rw [(serve_approve_effective autoApprove effective).2, Disk.loaded_saved]
    refine ⟨?_, ?_⟩
    · simpa [Disk.text?_promoted] using text
    · simp only [Mutation.newStore, Dict.get?_set_self, Option.bind_some]
      exact md5

def stageOne : Event := ("1", .stage scriptOne md5One none)

def stageTwo : Event := ("3", .stage scriptTwo md5Two none)

def displayedOne : List Event := [stageOne, ("2", .show)]

theorem displayedOne_reached (host : Host) :
    let reached := run (serve host [] "deploy") fresh displayedOne
    (reached.displayed = some scriptOne ∧ reached.restaged = false) ∧
      reached.disk.loaded host = reached.agent.store ∧
      reached.agent.store.scripts.get? "deploy" =
        some { state := .pending, pendingMd5 := some md5One } ∧
      reached.disk.text? host (.pending "deploy") = some scriptOne := by
  have staging : (Mutation.stage "deploy" scriptOne md5One none).Effective host
      (fresh.agentWorld "1") := by constructor <;> decide
  obtain ⟨_, loaded, record, text⟩ := serve_stage_effective [] staging nofun
  simp only [displayedOne, run_cons, run_nil, stageOne]
  generalize serve host [] "deploy" fresh ("1", .stage scriptOne md5One none) = staged at *
  have waiting : Waiting ((staged.disk.loaded host).stateOf "deploy") := by
    rw [loaded, ApprovalsStore.stateOf_of_get? record]
    exact .inl rfl
  simp only [serve, run_cmdApprovalsShow, State.process, if_pos waiting, text]
  exact ⟨⟨text, rfl⟩, loaded, record, text⟩

end Review

end Csl.Agent
