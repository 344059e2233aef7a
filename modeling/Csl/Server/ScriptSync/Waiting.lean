import Csl.Agent.Approvals.Versions
import Csl.Server.Installation
import Csl.Server.ScriptSync.Deployment

/-! The version that waits for the owner, and the canonical one.

Synchronising stages the canonical version of a script that is absent or approved in another
version. A version that is waiting already stays, also when a newer one is canonical.
-/

set_option autoImplicit false

namespace Csl.Server
open Csl.Shared Csl.Agent ApprovalsManager Sharing Runs Versions

namespace WaitingVersion
variable (platform : Platform) (autoApprove : Party → List String) (machine : Machine)

abbrev reached (events : List Event) : Deployment platform :=
  run (step platform autoApprove machine) (installed platform) events

def Once (events : List Event) (version : Script) : Prop :=
  ∃ earlier later, events = earlier ++ later ∧
    (reached platform autoApprove machine earlier).tables.scripts.find version.name = some version

/-- Whoever mutates has looked at approvals.json, and no file of the script is what another one
waits with. -/
def Orderly (s : Deployment platform) (event : Event) : Prop :=
  ∀ party mutation, Makes s event party mutation →
    Current s event ∧ Lone platform.host s.agent.disk mutation.name

/-- What requests have read and what waits on the agent was canonical once. -/
structure Sourced (events : List Event) : Prop where
  coherent : Coherent platform.host (reached platform autoApprove machine events).agent
  rows : ∀ request script, (reached platform autoApprove machine events).rows.get? request = some script →
    Once platform autoApprove machine events script
  waits : ∀ name md5 content,
    Waits platform.host (reached platform autoApprove machine events).agent.disk name md5 content →
      ∃ version, Once platform autoApprove machine events version ∧ version.name = name ∧
        md5 = some version.md5 ∧ content = some version.content

variable {platform autoApprove machine} {events : List Event} {version : Script}

theorem Once.append (once : Once platform autoApprove machine events version) (event : Event) :
    Once platform autoApprove machine (events ++ [event]) version := by
  obtain ⟨earlier, later, rfl, canonical⟩ := once
  exact ⟨earlier, later ++ [event], List.append_assoc _ _ _, canonical⟩

theorem once_canonical {name : String}
    (canonical : (reached platform autoApprove machine events).tables.scripts.find name = some version) :
    Once platform autoApprove machine events version := by
  have named := (reached platform autoApprove machine events).tables.scripts.named name version canonical
  subst named
  exact ⟨events, [], (List.append_nil events).symm, canonical⟩

theorem sourced_append (sourced : Sourced platform autoApprove machine events) (event : Event)
    (orderly : Orderly platform (reached platform autoApprove machine events) event) :
    Sourced platform autoApprove machine (events ++ [event]) := by
  have stepped : reached platform autoApprove machine (events ++ [event]) =
      step platform autoApprove machine (reached platform autoApprove machine events) event :=
    run_snoc _ _ _ _
  constructor
  · rw [stepped]
    exact coherent_step machine sourced.coherent event
  · intro request script read
    rw [stepped] at read
    rcases rows_step machine read with before | canonical
    · exact (sourced.rows request script before).append event
    · exact (once_canonical canonical).append event
  · intro name md5 content waits
    rw [stepped] at waits
    have leaves := @leaves_step platform autoApprove _ machine sourced.coherent event
      fun party mutation makes => (orderly party mutation makes).1
    have before : Waits platform.host (reached platform autoApprove machine events).agent.disk name md5
          content ∨ ∃ party staged metaYaml text, Makes (reached platform autoApprove machine events) event
            party (.stage name text staged metaYaml) ∧ md5 = some staged ∧ content = some text := by
      generalize (step platform autoApprove machine _ event).agent.disk = disk at leaves waits
      cases leaves with
      | same => exact .inl waits
      | mutated makes synced unread =>
        have lone := (orderly _ _ makes).2
        rw [← unread] at lone ⊢
        rcases waits_run synced lone waits with waited | ⟨text, staged, metaYaml, rfl, rfl, rfl⟩
        · exact .inl waited
        · exact .inr ⟨_, staged, metaYaml, text, makes, rfl, rfl⟩
    rcases before with waited | ⟨party, staged, metaYaml, text, makes, rfl, rfl⟩
    · obtain ⟨version, once, same⟩ := sourced.waits name md5 content waited
      exact ⟨version, once.append event, same⟩
    · -- only a version that a request has read is staged
      generalize brought : Mutation.stage name text staged metaYaml = mutation at makes
      cases makes with
      | sync found | restage found =>
        cases brought
        exact ⟨_, (sourced.rows _ _ found).append _, rfl, rfl, rfl⟩
      | @owner call _ same => cases call <;> cases same <;> cases brought

theorem sourced (orderly : Meets (step platform autoApprove machine) (Orderly platform)
    (installed platform) events) : Sourced platform autoApprove machine events := by
  induction events using List.reverseRecOn with
  | nil =>
    refine ⟨coherent_fresh, nofun, ?_⟩
    intro name md5 content waits
    cases waits with
    | intro found => exact absurd found (Option.some_ne_none _).symm
  | append_singleton events event ih =>
    obtain ⟨before, now, _⟩ := meets_append.mp orderly
    exact sourced_append (ih before) event now

/-- What is described as waiting waits. -/
theorem waits_of_described {host : Host} {disk : Disk} {name : String}
    (waiting : Waiting (describe (disk.loaded host) name).state) :
    Waits host disk name (describe (disk.loaded host) name).pendingMd5
      (disk.text? host (.pending name)) := by
  unfold describe at waiting ⊢
  cases found : (disk.loaded host).scripts.get? name with
  | none =>
    rw [found] at waiting
    rcases waiting with waiting | waiting <;> cases waiting
  | some record =>
    rw [found] at waiting
    exact .intro found waiting

theorem waiting_staged {host : Host} {autoApprove : List String} {w : World} {name content md5 : String}
    {metaYaml : Option String}
    (waiting : Waiting (stagedRecord (decide (name ∈ autoApprove)) (w.record name) md5 w.now).state) :
    (w.staged host autoApprove name content md5 metaYaml).disk.text? host (.pending name) = some content ∧
      (describe ((w.staged host autoApprove name content md5 metaYaml).disk.loaded host) name).pendingMd5 =
        some md5 := by
  obtain ⟨manual, recorded⟩ := stagedRecord_waiting waiting
  constructor
  · have manual : name ∉ autoApprove := of_decide_eq_false manual
    simp [World.staged, World.saved, manual, Disk.text?_staged]
  · simp only [World.staged, World.saved, Disk.loaded_saved, describe, Dict.get?_set_self]
    exact recorded

open Installation Csl.Agent.Installation

def firstVersion : Script := Csl.Server.version station 1 "deploy" scriptOne (some plainMeta) 1 ""

/-- A new version becomes canonical while the first one waits for the owner. -/
def editedWhilePending : List Event :=
  [.edit (.create "deploy" scriptOne (some plainMeta) 1), .load 0 "deploy", .sync 0,
    .edit (.update "deploy" scriptTwo (some plainMeta) 1)]

def editedVersion : Script := Csl.Server.version station 1 "deploy" scriptTwo (some plainMeta) 1 ""

end WaitingVersion

end Csl.Server
