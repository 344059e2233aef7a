import Csl.Agent.Approvals.Versions
import Csl.Agent.ScriptRunner.Specs
import Csl.Server.Installation
import Csl.Server.ScriptSync.Deployment

/-! The metadata an agent validates against, and the library's.

Whether a version is up to date is decided by the md5 of its content, while its metadata
travels beside it. Both sides agree as long as no md5 comes with two different metadata.
-/

set_option autoImplicit false

namespace Csl.Server
open Csl.Shared Csl.Agent ApprovalsManager Sharing Runs Versions

/-- The metadata file that staging a version writes. -/
def Script.metaText (script : Script) (host : Host) : Option String :=
  script.metaYaml.map (encode host .platform)

namespace Metadata
variable {platform : Platform}

def Reads (text metaYaml : Option String) : Prop :=
  text.map Newlines.universal = metaYaml.map Newlines.universal

instance (text metaYaml : Option String) : Decidable (Reads text metaYaml) :=
  inferInstanceAs (Decidable (_ = _))

/-- A version of a name, known by its md5, with its metadata file: one the agent holds, or one a
request in flight has read and may still stage. -/
inductive Held (s : Deployment platform) : String → String → Option String → Prop where
  | agent {name md5 : String} {text : Option String} :
      Holds platform.host s.agent.disk name (some md5) text → Held s name md5 text
  | request {request : Nat} {script : Script} : s.rows.get? request = some script →
      Held s script.name script.md5 (script.metaText platform.host)

/-- The canonical version's md5 comes with the canonical metadata, wherever it is. -/
structure Agreed (s : Deployment platform) : Prop where
  coherent : Coherent platform.host s.agent
  readable : ∀ name script, s.tables.scripts.find name = some script →
    Reads (script.metaText platform.host) script.metaYaml
  held : ∀ name script, s.tables.scripts.find name = some script →
    ∀ text, Held s name script.md5 text → Reads text script.metaYaml

variable (autoApprove : Party → List String)

/-- A step that keeps metadata and md5 together. An edit publishes metadata whose line endings
survive the agent's text files, and no md5 that is held with other metadata; whatever is staged,
approved or removed is so by a manager that is up to date, and mixes up no metadata. -/
def Keeps (s : Deployment platform) : Event → Prop
  | .edit edit => ∀ script, edit.Publishes platform s.now s.tables script →
      Reads (script.metaText platform.host) script.metaYaml ∧
        ∀ text, Held s script.name script.md5 text → Reads text script.metaYaml
  | event => ∀ party mutation, Makes s event party mutation →
      Current s event ∧ Clean platform.host (autoApprove party) s.agent.disk mutation

variable {autoApprove} {s : Deployment platform} {name md5 : String} {text : Option String}

/-- What is held is decided by the agent's files and the rows that were read. -/
theorem Held.congr {after : Deployment platform} (held : Held after name md5 text)
    (disk : after.agent.disk = s.agent.disk) (rows : after.rows = s.rows) : Held s name md5 text := by
  cases held with
  | agent holds =>
    rw [disk] at holds
    exact .agent holds
  | request found =>
    rw [rows] at found
    exact .request found

variable {machine : Machine}

theorem held_brought {event : Event} {party : Party} {mutation : Mutation}
    (makes : Makes s event party mutation)
    (brings : Brings platform.host mutation name (some md5) text) : Held s name md5 text := by
  cases makes with
  | sync found | restage found =>
    generalize stored : some md5 = wanted at brings
    cases brings with
    | stage =>
      cases stored
      exact .request found
  | @owner call _ same =>
    cases call with
    | construct | list => cases same
    | approve | reject | clear =>
      cases same
      exact absurd brings nofun

/-- Every version held after a step was held before it or is canonical. -/
theorem held_step (agreed : Agreed s) {event : Event}
    (keeps : ∀ party mutation, Makes s event party mutation →
      Current s event ∧ Clean platform.host (autoApprove party) s.agent.disk mutation)
    (held : Held (step platform autoApprove machine s event) name md5 text) :
    Held s name md5 text ∨ ∃ script, s.tables.scripts.find name = some script ∧
      text = script.metaText platform.host := by
  cases held with
  | request read =>
    rcases rows_step machine read with before | canonical
    · exact .inl (.request before)
    · exact .inr ⟨_, canonical, rfl⟩
  | agent holds =>
    have leaves := @leaves_step platform autoApprove s machine agreed.coherent event
      fun party mutation makes => (keeps party mutation makes).1
    generalize (step platform autoApprove machine s event).agent.disk = disk at leaves holds
    cases leaves with
    | same => exact .inl (.agent holds)
    | mutated makes synced unread =>
      have clean := (keeps _ _ makes).2
      rw [← unread] at clean
      rcases holds_run synced clean holds with before | brought
      · rw [unread] at before
        exact .inl (.agent before)
      · exact .inl (held_brought makes brought)

theorem agreed_step (agreed : Agreed s) (event : Event) (keeps : Keeps autoApprove s event) :
    Agreed (step platform autoApprove machine s event) := by
  by_cases edits : ∃ edit, event = .edit edit
  · obtain ⟨edit, rfl⟩ := edits
    refine ⟨agreed.coherent, ?_, ?_⟩
    · intro name script found
      rcases @Edit.find_apply platform s.now s.tables edit name script found with before | ⟨publishes, _⟩
      · exact agreed.readable name script before
      · exact (keeps script publishes).1
    · intro name script found text held
      have before : Held s name script.md5 text := held.congr rfl rfl
      rcases @Edit.find_apply platform s.now s.tables edit name script found with kept | ⟨publishes, named⟩
      · exact agreed.held name script kept text before
      · subst named
        exact (keeps script publishes).2 text before
  · have other : ∀ edit, event ≠ .edit edit := fun edit same => edits ⟨edit, same⟩
    have scripts := @scripts_step platform autoApprove s machine event other
    have orderly : ∀ party mutation, Makes s event party mutation →
        Current s event ∧ Clean platform.host (autoApprove party) s.agent.disk mutation := by
      cases event with
      | edit edit => exact absurd rfl (other edit)
      | clock | load | sync | restage | owner | restartAgent => exact keeps
    refine ⟨coherent_step machine agreed.coherent event, ?_, ?_⟩
    · rw [scripts]
      exact agreed.readable
    · intro name script found text held
      rw [scripts] at found
      rcases held_step agreed orderly held with before | ⟨canonical, same, rfl⟩
      · exact agreed.held name script found text before
      · rw [found] at same
        obtain rfl := Option.some.inj same
        exact agreed.readable name script found

theorem agreed_installed : Agreed (installed platform) := by
  refine ⟨coherent_fresh, nofun, nofun⟩

theorem holds_of_approved (coherent : Coherent platform.host s.agent) {script : Script}
    (reported : (s.perform platform autoApprove (syncScript machine script)).1 =
      .ok (.agent .approved)) :
    let disk := (s.perform platform autoApprove (syncScript machine script)).2.agent.disk
    Holds platform.host disk script.name (some script.md5)
      (disk.text? platform.host (.scripts (metaFile script.name))) := by
  have synced := synced_resynced coherent
  have now : (s.world.resynced platform.host).now = s.now := World.now_resynced _ _
  intro disk
  by_cases endpoint : EndpointName script.name
  · simp only [disk, perform_syncScript, if_pos endpoint] at reported ⊢
    generalize s.world.resynced platform.host = w at synced now reported ⊢
    by_cases needs : NeedsStaging script (describe w.memory.store script.name)
    · simp only [if_pos needs] at reported ⊢
      have state := TargetState.agent.inj (Except.ok.inj reported)
      have md5 := (stagedRecord_approved state).2
      rw [← md5]
      apply Holds.approved _ state
      simp [Deployment.left, Deployment.cached, World.staged, World.saved, now]
    · simp only [if_neg needs] at reported ⊢
      obtain ⟨state, md5⟩ := resolve_approved (Except.ok.inj reported)
      obtain ⟨record, found, same⟩ := record_of_described state
      rw [same] at state md5
      rw [synced.store] at found
      rw [← md5]
      exact .approved found state
  · rw [perform_syncScript, if_neg endpoint] at reported
    cases reported

theorem checkParams_universal {host : Host}
    (lineEndings : ∀ text parsed, host.parseMetaYaml text = .ok parsed →
      host.parseMetaYaml (Newlines.universal text) = .ok parsed)
    {params : Params} {metaYaml : Option String} (valid : checkParams host name params metaYaml = .ok ()) :
    checkParams host name params (metaYaml.map Newlines.universal) = .ok () := by
  cases metaYaml with
  | none => exact valid
  | some text =>
    simp only [checkParams] at valid
    split at valid
    · cases valid
    next parsed parses =>
      simpa only [checkParams, Option.map_some, lineEndings text parsed parses] using valid

open Installation Csl.Agent.Installation

def published : List Event :=
  [.edit (.create "deploy" scriptOne (some plainMeta) 1), .load 0 "deploy"]

def firstVersion : Script := version station 1 "deploy" scriptOne (some plainMeta) 1 ""

def secondVersion : Script := version station 1 "deploy" scriptOne (some levelMeta) 1 ""

def always : Party → List String := fun _ => ["deploy"]

theorem not_holds_fresh {host : Host} {name : String} {md5 text : Option String} :
    ¬ Holds host fresh.disk name md5 text := by
  intro holds
  cases holds with
  | approved found | waiting found => exact absurd found (Option.some_ne_none _).symm

theorem not_held_installed {name md5 : String} {text : Option String} :
    ¬ Held (installed platform) name md5 text := by
  intro held
  cases held with
  | agent holds => exact not_holds_fresh holds
  | request found => exact absurd found (Option.some_ne_none _).symm

theorem published_keeps :
    Meets (step station always workstation) (Keeps always) (installed station) (published ++ [.sync 0]) := by
  refine ⟨?_, nofun, ?_, trivial⟩
  · intro script publishes
    cases publishes with
    | created =>
      constructor
      · decide +kernel
      · intro text held
        exact absurd held not_held_installed
  · intro party mutation makes
    have row : (run (step station always workstation) (installed station) published).rows.get? 0 =
      some firstVersion := by decide +kernel
    cases makes with
    | sync found =>
      obtain rfl := Option.some.inj (row.symm.trans found)
      refine ⟨trivial, nofun, ?_⟩
      intro other md5 text _ holds
      exact absurd holds not_holds_fresh

end Metadata

end Csl.Server
