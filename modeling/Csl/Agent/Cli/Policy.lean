import Csl.Agent.Approvals.Mutations
import Csl.Agent.Installation

/-! The auto-approve list, and what revoking an entry does for a running agent.

The owner edits the list in config.yaml; the agent copies it once, when it starts.
Between `policy manual` and the agent's next start the two can differ.
-/

set_option autoImplicit false

namespace Csl.Agent
open Csl.Shared ApprovalsManager Runs Installation

/-- The section of config.yaml the policy commands edit. -/
structure ApprovalPolicySection where
  autoApprove : List String := []
  deriving DecidableEq, Repr

/-- `load_config`: a missing file gives the defaults. -/
def loadConfig (file : Option ApprovalPolicySection) : ApprovalPolicySection := file.getD {}

/-- `_policy_set_entry`: what it prints or raises, and the config file it leaves. -/
def policySetEntry (name : String) (add : Bool) (file : Option ApprovalPolicySection) :
    Except Err String × Option ApprovalPolicySection :=
  let current := (loadConfig file).autoApprove
  let write (entries : List String) (verb : String) :=
    match file with
    | none => (.error (.fileNotFound (.other "config.yaml")), none)
    | some _ => (.ok s!"'{name}' {verb} the auto-approve list.", some { autoApprove := entries })
  if add then
    if name ∈ current then (.ok s!"'{name}' is already on the auto-approve list.", file)
    else write (current ++ [name]) "added to"
  else if name ∉ current then (.ok s!"'{name}' is not on the auto-approve list.", file)
  -- list.remove takes out the first occurrence only
  else write (current.erase name) "removed from"

theorem entries_manual (name : String) (file : Option ApprovalPolicySection) :
    (loadConfig (policySetEntry name false file).2).autoApprove =
      (loadConfig file).autoApprove.erase name := by
  cases file with
  | none => rfl
  | some policy =>
    by_cases known : name ∈ policy.autoApprove
    · simp [policySetEntry, loadConfig, known]
    · simp [policySetEntry, loadConfig, known, List.erase_of_not_mem]

theorem entries_auto (name : String) (policy : ApprovalPolicySection) :
    (loadConfig (policySetEntry name true (some policy)).2).autoApprove =
      if name ∈ policy.autoApprove then policy.autoApprove else policy.autoApprove ++ [name] := by
  by_cases known : name ∈ policy.autoApprove
  · simp [policySetEntry, loadConfig, known]
  · simp [policySetEntry, loadConfig, known]

theorem mem_entries_auto {name entry : String} {file : Option ApprovalPolicySection}
    (listed : entry ∈ (loadConfig (policySetEntry name true file).2).autoApprove) :
    entry = name ∨ entry ∈ (loadConfig file).autoApprove := by
  cases file with
  | none => exact .inr listed
  | some policy =>
    rw [entries_auto] at listed
    split at listed
    · exact .inr listed
    · rcases List.mem_append.mp listed with before | added
      · exact .inr before
      · exact .inl (List.mem_singleton.mp added)

/-- The entry is gone exactly when the list had it at most once. -/
theorem not_mem_entries_manual (name : String) (file : Option ApprovalPolicySection) :
    name ∉ (loadConfig (policySetEntry name false file).2).autoApprove ↔
      (loadConfig file).autoApprove.count name ≤ 1 := by
  rw [entries_manual, ← List.count_eq_zero, List.count_erase_self]
  omega

namespace Policy

inductive Request where
  | autoApprove (name : String)
  | manual (name : String)
  | start
  | stop
  | stage (name content md5 : String) (metaYaml : Option String)
  deriving DecidableEq, Repr

abbrev Event := Timestamp × Request

/-- A running agent: its manager's fields and the list it was constructed with. -/
structure RunningAgent where
  memory : Memory
  autoApprove : List String

structure State where
  config : Option ApprovalPolicySection
  disk : Disk
  agent : Option RunningAgent

def RunningAgent.world (agent : RunningAgent) (disk : Disk) (now : Timestamp) : World :=
  ⟨agent.memory, disk, now, []⟩

variable (host : Host)

/-- `_lifespan` up to the manager's construction. -/
def start (s : State) (now : Timestamp) : RunningAgent :=
  ⟨(host.run (init host) ⟨World.fresh.memory, s.disk, now, []⟩).2.memory,
    (loadConfig s.config).autoApprove⟩

def serve (s : State) (event : Event) : State :=
  match event.2, s.agent with
  | .autoApprove name, _ => { s with config := (policySetEntry name true s.config).2 }
  | .manual name, _ => { s with config := (policySetEntry name false s.config).2 }
  | .start, none => { s with agent := some (start host s event.1) }
  -- a second agent finds the port taken and exits
  | .start, some _ => s
  | .stop, _ => { s with agent := none }
  | .stage .., none => s
  | .stage name content md5 metaYaml, some agent =>
    let after := (host.run (stage host agent.autoApprove name content md5 metaYaml)
      (agent.world s.disk event.1)).2
    { s with disk := after.disk, agent := some { agent with memory := after.memory } }

/-- The auto-approval of a name has been revoked by the last policy command on it. -/
def Revoked (name : String) (events : List Event) : Prop :=
  ∃ earlier now later, events = earlier ++ (now, .manual name) :: later ∧
    ∀ event ∈ later, event.2 ≠ .autoApprove name

/-- A staged version is left to the owner: it waits or is refused, and scripts/ is as it was. -/
structure LeftToOwner (s : State) (now : Timestamp) (agent : RunningAgent)
    (name content md5 : String) (metaYaml : Option String) : Prop where
  answer : ∀ state, (host.run (stage host agent.autoApprove name content md5 metaYaml)
    (agent.world s.disk now)).1 = .ok state → Waiting state
  record : ((serve host s (now, .stage name content md5 metaYaml)).disk.loaded host).stateOf name ≠
    .approved
  scripts : ∀ file, (serve host s (now, .stage name content md5 metaYaml)).disk.text? host
    (.scripts file) = s.disk.text? host (.scripts file)

/-- An entry is revoked when the list has it once, and a stage is served by an agent whose
copy of the list has the name only if config.yaml still has it. -/
def Current (s : State) (event : Event) : Prop :=
  match event.2 with
  | .manual name => (loadConfig s.config).autoApprove.count name ≤ 1
  | .stage name .. => ∀ agent ∈ s.agent, name ∈ agent.autoApprove →
      name ∈ (loadConfig s.config).autoApprove
  | _ => True

instance (s : State) (event : Event) : Decidable (Current s event) := by
  obtain ⟨_, request⟩ := event
  cases request <;> unfold Current <;> infer_instance

def Loaded (s : State) : Prop := ∀ agent ∈ s.agent, agent.memory.store = s.disk.loaded host

variable {host} {s : State} {name : String}

theorem staged_loaded {autoApprove : List String} {content md5 : String} {metaYaml : Option String}
    {w : World} (loaded : w.memory.store = w.disk.loaded host) :
    let after := (host.run (stage host autoApprove name content md5 metaYaml) w).2
    after.memory.store = after.disk.loaded host := by
  simp only [run_stage]
  split_ifs
  · exact loaded
  · exact loaded
  · exact (Disk.loaded_saved _).symm

theorem loaded_serve (loaded : Loaded host s) (event : Event) : Loaded host (serve host s event) := by
  obtain ⟨now, request⟩ := event
  obtain ⟨config, disk, running⟩ := s
  cases request with
  | autoApprove name | manual name => exact loaded
  | stop => exact nofun
  | start =>
    cases running with
    | some agent => exact loaded
    | none =>
      rintro agent ⟨⟩
      simp [start, run_init, serve]
  | stage name content md5 metaYaml =>
    cases running with
    | none => exact nofun
    | some agent =>
      rintro after ⟨⟩
      exact staged_loaded (w := agent.world disk now) (loaded agent rfl)

theorem unlisted_serve {event : Event} (unlisted : name ∉ (loadConfig s.config).autoApprove)
    (spared : event.2 ≠ .autoApprove name) :
    name ∉ (loadConfig (serve host s event).config).autoApprove := by
  obtain ⟨now, request⟩ := event
  obtain ⟨config, disk, running⟩ := s
  cases request with
  | autoApprove other =>
    intro listed
    rcases mem_entries_auto listed with rfl | before
    · exact spared rfl
    · exact unlisted before
  | manual other =>
    intro listed
    rw [show (serve host ⟨config, disk, running⟩ (now, .manual other)).config =
      (policySetEntry other false config).2 from rfl, entries_manual] at listed
    exact unlisted (List.mem_of_mem_erase listed)
  | stop => exact unlisted
  | start => cases running <;> exact unlisted
  | stage => cases running <;> exact unlisted

/-- From its revocation until it is put back, a name is not in config.yaml. -/
theorem unlisted_run {start : State} {events : List Event} (revoked : Revoked name events)
    (current : Meets (serve host) Current start events) :
    name ∉ (loadConfig (run (serve host) start events).config).autoApprove := by
  obtain ⟨earlier, now, later, rfl, spared⟩ := revoked
  obtain ⟨_, once, _⟩ := meets_append.mp current
  rw [run_append, run_cons]
  have gone : name ∉ (loadConfig (serve host (run (serve host) start earlier)
      (now, .manual name)).config).autoApprove := (not_mem_entries_manual _ _).mpr once
  have away : Meets (serve host) (fun _ event => event.2 ≠ .autoApprove name)
      (serve host (run (serve host) start earlier) (now, .manual name)) later := meets_of_mem spared
  exact invariant_run (fun s : State => name ∉ (loadConfig s.config).autoApprove)
    (fun _ _ unlisted spared => unlisted_serve unlisted spared) gone away

/-- What a stage of a name that is not auto-approved can do, unless it is of the approved
version: be refused, find the version waiting already, or leave it waiting. -/
theorem stage_manual (host : Host) {autoApprove : List String} (w : World) (manual : name ∉ autoApprove)
    (content md5 : String) (metaYaml : Option String)
    (changed : (w.record name).bind (·.approvedMd5) ≠ some md5) :
    let ends := host.run (stage host autoApprove name content md5 metaYaml) w
    (∀ state, ends.1 = .ok state → Waiting state) ∧ ends.2.memory.store.stateOf name ≠ .approved ∧
      ∀ file, ends.2.disk.text? host (.scripts file) = w.disk.text? host (.scripts file) := by
  simp only [run_stage]
  split_ifs with rejected same
  · exact ⟨by simp, by simp [rejected], fun file => rfl⟩
  · rcases same with ⟨_, approved⟩ | ⟨waiting, _⟩
    · exact absurd approved changed
    · refine ⟨?_, ?_, fun file => rfl⟩
      · rintro state ⟨⟩
        exact waiting
      · rcases waiting with state | state <;> simp [state]
  · have stored := World.stateOf_of_record
      ((World.record_staged host w autoApprove name content md5 metaYaml name).trans (if_pos rfl))
    rw [decide_eq_false manual] at stored ⊢
    have waits := waiting_stagedRecord (w.record name) md5 w.now
    refine ⟨?_, ?_, fun file => ?_⟩
    · rintro state ⟨⟩
      exact waits
    · rw [stored]
      rcases waits with state | state <;> simp [state]
    · simp [World.staged, World.saved, manual]

/-- An agent that lists a name approves every new version of it. -/
theorem stage_listed {autoApprove : List String} {w : World} (listed : name ∈ autoApprove)
    (content md5 : String) (metaYaml : Option String)
    (notRejected : w.memory.store.stateOf name ≠ .rejected)
    (moves : ¬ AlreadyStaged w.memory.store name md5) :
    (host.run (stage host autoApprove name content md5 metaYaml) w).1 = .ok .approved := by
  rw [run_stage, if_neg notRejected, if_neg moves]
  simp [stagedRecord, listed]

/-- A stage of a name that the agent does not auto-approve is left to the owner, unless it
is of the approved version. -/
theorem leftToOwner_of_manual {agent : RunningAgent} (loaded : Loaded host s)
    (serving : s.agent = some agent) (manual : name ∉ agent.autoApprove) (now : Timestamp)
    (content md5 : String) (metaYaml : Option String)
    (changed : ((s.disk.loaded host).scripts.get? name).bind (·.approvedMd5) ≠ some md5) :
    LeftToOwner host s now agent name content md5 metaYaml := by
  have store : agent.memory.store = s.disk.loaded host := loaded agent serving
  rw [← store] at changed
  obtain ⟨answer, state, scripts⟩ :=
    stage_manual host (agent.world s.disk now) manual content md5 metaYaml changed
  refine ⟨answer, ?_, ?_⟩
  · simp only [serve, serving]
    rwa [← staged_loaded (w := agent.world s.disk now) store]
  · intro file
    simp only [serve, serving]
    exact scripts file

/-- In every run whose steps are current, a stage of a name whose auto-approval is revoked
and of a version that is not the approved one is left to the owner. -/
theorem revocation_takes_effect (host : Host) (config : Option ApprovalPolicySection) (disk : Disk)
    (events : List Event) (current : Meets (serve host) Current ⟨config, disk, none⟩ events) :
    ∀ before now name content md5 metaYaml after agent,
      events = before ++ (now, .stage name content md5 metaYaml) :: after →
      let reached := run (serve host) ⟨config, disk, none⟩ before
      reached.agent = some agent → Revoked name before →
      ((reached.disk.loaded host).scripts.get? name).bind (·.approvedMd5) ≠ some md5 →
      LeftToOwner host reached now agent name content md5 metaYaml := by
  rintro before now name content md5 metaYaml after agent rfl reached serving revoked changed
  obtain ⟨prior, upToDate, _⟩ := meets_append.mp current
  have loaded : Loaded host reached := invariant_run_of_forall (Loaded host)
    (fun _ event loaded => loaded_serve loaded event) (by rintro agent ⟨⟩) before
  have unlisted := unlisted_run revoked prior
  have manual : name ∉ agent.autoApprove := fun listed => unlisted (upToDate agent serving listed)
  exact leftToOwner_of_manual loaded serving manual now content md5 metaYaml changed

/-! ## An agent that was running when the entry was removed -/

def revokedRun (restarted : Bool) : List Event :=
  [("1", .autoApprove "deploy"), ("2", .start), ("3", .manual "deploy")] ++
    if restarted then [("4", .stop), ("5", .start)] else []

def initialConfig : State := ⟨some {}, .empty, none⟩

theorem revokedRun_revoked (restarted : Bool) : Revoked "deploy" (revokedRun restarted) := by
  refine ⟨[("1", .autoApprove "deploy"), ("2", .start)], "3", _, rfl, ?_⟩
  cases restarted <;> decide

theorem revocation_after_restart :
    ∃ agent, LeftToOwner linux (run (serve linux) initialConfig (revokedRun true)) "6" agent "deploy"
      scriptOne md5One none := by
  refine ⟨_, revocation_takes_effect linux _ _
    (revokedRun true ++ [("6", .stage "deploy" scriptOne md5One none)]) (by decide +kernel)
    (revokedRun true) "6" "deploy" scriptOne md5One none [] _ rfl rfl (revokedRun_revoked true) ?_⟩
  decide +kernel

/-- An agent started before the entry was removed goes on approving. -/
theorem running_agent_approves_after_revocation :
    let reached := run (serve linux) initialConfig (revokedRun false)
    ∃ agent, reached.agent = some agent ∧ Revoked "deploy" (revokedRun false) ∧
      ((reached.disk.loaded linux).scripts.get? "deploy").bind (·.approvedMd5) ≠ some md5One ∧
      (linux.run (stage linux agent.autoApprove "deploy" scriptOne md5One none)
        (agent.world reached.disk "4")).1 = .ok .approved ∧
      ¬ LeftToOwner linux reached "4" agent "deploy" scriptOne md5One none := by
  have answered : (linux.run (stage linux ["deploy"] "deploy" scriptOne md5One none)
      (World.fresh.atTime "4")).1 = .ok .approved :=
    stage_listed (by decide) scriptOne md5One none (by decide) (by decide)
  refine ⟨⟨World.fresh.memory, ["deploy"]⟩, rfl, revokedRun_revoked false, by decide +kernel,
    answered, fun left => ?_⟩
  have waiting := left.answer _ answered
  exact absurd waiting (by decide)

end Policy

end Csl.Agent
