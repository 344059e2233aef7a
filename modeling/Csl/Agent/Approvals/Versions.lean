import Csl.Agent.Approvals.Mutations

/-! The versions of a script an agent holds, each with its metadata.

A version is known by its md5. Only staging brings a version in; approving moves the waiting
one, with its metadata, over the approved one. Metadata that is already there goes along with
a version that brings none.
-/

set_option autoImplicit false

namespace Csl.Agent
open Csl.Shared ApprovalsManager

namespace Versions

inductive Holds (host : Host) (disk : Disk) (name : String) : Option String → Option String → Prop where
  | approved {record : ScriptRecord} :
      (disk.loaded host).scripts.get? name = some record → record.state = .approved →
      Holds host disk name record.approvedMd5 (disk.text? host (.scripts (metaFile name)))
  | waiting {record : ScriptRecord} :
      (disk.loaded host).scripts.get? name = some record → Waiting record.state →
      Holds host disk name record.pendingMd5 (disk.text? host (.pending (metaFile name)))

/-- No metadata file of another version is left where this mutation brings a version without
metadata: beside a staged version, or beside a promoted one. -/
def Fresh (host : Host) (autoApprove : List String) (disk : Disk) : Mutation → Prop
  | .stage name _ _ metaYaml => metaYaml = none →
      disk.text? host (.pending (metaFile name)) = none ∧
        (name ∈ autoApprove → disk.text? host (.scripts (metaFile name)) = none)
  | .approve name => disk.text? host (.pending (metaFile name)) = none →
      disk.text? host (.scripts (metaFile name)) = none
  | .reject _ | .clear _ => True

/-- None of the files of `name` is the metadata of another script the agent holds. -/
def Alone (host : Host) (disk : Disk) (name : String) : Prop :=
  ∀ other md5 text, other ≠ name → Holds host disk other md5 text →
    ¬ host.SameFile name other ∧ ¬ host.SameFile name (metaFile other)

structure Clean (host : Host) (autoApprove : List String) (disk : Disk) (mutation : Mutation) : Prop where
  fresh : Fresh host autoApprove disk mutation
  alone : Alone host disk mutation.name

inductive Brings (host : Host) : Mutation → String → Option String → Option String → Prop where
  | stage {name content md5 : String} {metaYaml : Option String} :
      Brings host (.stage name content md5 metaYaml) name (some md5)
        (metaYaml.map (encode host .platform))

variable {host : Host} {autoApprove : List String} {w : World} {name : String}
  {md5 text : Option String}

theorem Holds.congr {disk after : Disk}
    (record : (after.loaded host).scripts.get? name = (disk.loaded host).scripts.get? name)
    (scriptMeta : after.text? host (.scripts (metaFile name)) = disk.text? host (.scripts (metaFile name)))
    (pendingMeta : after.text? host (.pending (metaFile name)) = disk.text? host (.pending (metaFile name)))
    (held : Holds host after name md5 text) : Holds host disk name md5 text := by
  cases held with
  | approved found state =>
    rw [record] at found
    rw [scriptMeta]
    exact .approved found state
  | waiting found state =>
    rw [record] at found
    rw [pendingMeta]
    exact .waiting found state

theorem Holds.same_record {disk after : Disk}
    (record : (after.loaded host).scripts.get? name = (disk.loaded host).scripts.get? name)
    (held : Holds host after name md5 text) : ∃ text, Holds host disk name md5 text := by
  cases held with
  | approved found state =>
    rw [record] at found
    exact ⟨_, .approved found state⟩
  | waiting found state =>
    rw [record] at found
    exact ⟨_, .waiting found state⟩

/-- A mutation leaves what is held of other names as it was, where its files are apart from
their metadata. -/
theorem holds_other {mutation : Mutation} (synced : w.Synced host)
    (alone : Alone host w.disk mutation.name) (other : name ≠ mutation.name)
    (held : Holds host (host.run (mutation.action host autoApprove) w).2.disk name md5 text) :
    Holds host w.disk name md5 text := by
  have record : ((host.run (mutation.action host autoApprove) w).2.disk.loaded host).scripts.get? name =
      (w.disk.loaded host).scripts.get? name := by
    have after := (@Mutation.synced_run host autoApprove mutation w synced).store
    rw [← after, ← synced.store]
    exact mutation.record_run_of_ne host autoApprove w other
  obtain ⟨_, before⟩ := held.same_record record
  obtain ⟨names, files⟩ := alone name _ _ other before
  have scripts : ¬ Mutation.Touches host mutation.name (.scripts (metaFile name)) := by
    simp only [Mutation.Touches, Host.canonical_scripts_eq, Host.canonical_scripts_ne_pending, or_false,
      sameFile_metaFile_iff, not_or]
    exact ⟨fun same => files same.symm, fun same => names same.symm⟩
  have pending : ¬ Mutation.Touches host mutation.name (.pending (metaFile name)) := by
    simp only [Mutation.Touches, Host.canonical_pending_eq, Host.canonical_pending_ne_scripts, false_or,
      sameFile_metaFile_iff, not_or]
    exact ⟨fun same => files same.symm, fun same => names same.symm⟩
  apply held.congr record
  · exact mutation.text?_run_of_not_touched w scripts (by simp) (by simp)
  · exact mutation.text?_run_of_not_touched w pending (by simp) (by simp)

/-- What is held after a stage call that took effect is the staged version. -/
theorem holds_staged {content staged : String} {metaYaml : Option String}
    (fresh : Fresh host autoApprove w.disk (.stage name content staged metaYaml))
    (held : Holds host (w.staged host autoApprove name content staged metaYaml).disk name md5 text) :
    md5 = some staged ∧ text = metaYaml.map (encode host .platform) := by
  have record : ∀ {found : ScriptRecord},
      ((w.staged host autoApprove name content staged metaYaml).disk.loaded host).scripts.get? name =
        some found →
      found = stagedRecord (decide (name ∈ autoApprove)) (w.record name) staged w.now := by
    intro found looked
    simp only [World.staged, World.saved, Disk.loaded_saved, Dict.get?_set_self] at looked
    exact (Option.some.inj looked).symm
  have alone : metaYaml = none → w.disk.text? host (.pending (metaFile name)) = none ∧
      (name ∈ autoApprove → w.disk.text? host (.scripts (metaFile name)) = none) := fresh
  cases held with
  | approved found state =>
    obtain rfl := record found
    obtain ⟨auto, approved⟩ := stagedRecord_approved state
    refine ⟨approved, ?_⟩
    have auto : name ∈ autoApprove := of_decide_eq_true auto
    cases metaYaml with
    | some text => simp [World.staged, World.saved, auto, Disk.text?_promoted, Disk.text?_staged]
    | none =>
      -- no metadata of an earlier version is left where none was given
      obtain ⟨pending, scripts⟩ := alone rfl
      simp [World.staged, World.saved, auto, Disk.text?_promoted, Disk.text?_staged, pending,
        scripts auto]
  | waiting found state =>
    obtain rfl := record found
    obtain ⟨manual, waiting⟩ := stagedRecord_waiting state
    refine ⟨waiting, ?_⟩
    have manual : name ∉ autoApprove := of_decide_eq_false manual
    cases metaYaml with
    | some text => simp [World.staged, World.saved, manual, Disk.text?_staged]
    | none => simp [World.staged, World.saved, manual, Disk.text?_staged, (alone rfl).1]

/-- What is held after an approval was waiting before it. -/
theorem holds_approved {record : ScriptRecord} (synced : w.Synced host)
    (found : w.record name = some record) (waiting : Waiting record.state)
    (fresh : Fresh host autoApprove w.disk (.approve name))
    (held : Holds host (w.approved host name record.pendingMd5).disk name md5 text) :
    Holds host w.disk name md5 text := by
  have before : (w.disk.loaded host).scripts.get? name = some record := by
    rw [← synced.store]
    exact found
  have after : ∀ {other : ScriptRecord},
      ((w.approved host name record.pendingMd5).disk.loaded host).scripts.get? name = some other →
      other.state = .approved ∧ other.approvedMd5 = record.pendingMd5 := by
    intro other looked
    simp only [World.approved, World.saved, Disk.loaded_saved, Dict.get?_set_self] at looked
    obtain rfl := Option.some.inj looked
    exact ⟨rfl, rfl⟩
  have alone : w.disk.text? host (.pending (metaFile name)) = none →
      w.disk.text? host (.scripts (metaFile name)) = none := fresh
  cases held with
  | approved looked =>
    rw [(after looked).2]
    have moved : (w.approved host name record.pendingMd5).disk.text? host (.scripts (metaFile name)) =
        w.disk.text? host (.pending (metaFile name)) := by
      cases pending : w.disk.text? host (.pending (metaFile name)) with
      | some text => simp [World.approved, World.saved, Disk.text?_promoted, pending]
      | none => simp [World.approved, World.saved, Disk.text?_promoted, pending, alone pending]
    rw [moved]
    exact .waiting before waiting
  | waiting looked state =>
    rw [(after looked).1] at state
    rcases state with state | state <;> cases state

/-- After a mutation that mixes up no metadata, each version held was held before or is the
one it brought in. -/
theorem holds_run {mutation : Mutation} (synced : w.Synced host)
    (clean : Clean host autoApprove w.disk mutation)
    (held : Holds host (host.run (mutation.action host autoApprove) w).2.disk name md5 text) :
    Holds host w.disk name md5 text ∨ Brings host mutation name md5 text := by
  by_cases own : name = mutation.name
  · have ends := mutation.outcome host autoApprove w
    generalize host.run (mutation.action host autoApprove) w = result at ends held
    subst own
    cases ends with
    | refused | unchanged => exact .inl held
    | staged =>
      obtain ⟨rfl, rfl⟩ := holds_staged clean.fresh held
      exact .inr .stage
    | approved found waiting => exact .inl (holds_approved synced found waiting clean.fresh held)
    | rejected =>
      exfalso
      cases held with
      | approved found state | waiting found state =>
        simp only [World.rejected, World.saved, Disk.loaded_saved, Mutation.name, Dict.get?_set_self] at found
        obtain rfl := Option.some.inj found
        rcases state with state | state <;> cases state
    | cleared =>
      exfalso
      cases held with
      | approved found | waiting found =>
        simp [World.cleared, World.saved, Mutation.name] at found
  · exact .inl (holds_other synced clean.alone own held)

/-! ## The content that waits -/

inductive Waits (host : Host) (disk : Disk) (name : String) : Option String → Option String → Prop where
  | intro {record : ScriptRecord} :
      (disk.loaded host).scripts.get? name = some record → Waiting record.state →
      Waits host disk name record.pendingMd5 (disk.text? host (.pending name))

def Lone (host : Host) (disk : Disk) (name : String) : Prop :=
  ∀ other md5 content, other ≠ name → Waits host disk other md5 content →
    ¬ host.SameFile name other ∧ ¬ host.SameFile (metaFile name) other

theorem waits_other {mutation : Mutation} (synced : w.Synced host)
    (lone : Lone host w.disk mutation.name) (other : name ≠ mutation.name)
    (waits : Waits host (host.run (mutation.action host autoApprove) w).2.disk name md5 text) :
    Waits host w.disk name md5 text := by
  have after := (@Mutation.synced_run host autoApprove mutation w synced).store
  have record := mutation.record_run_of_ne host autoApprove w other
  cases waits with
  | @intro stored found waiting =>
    rw [← after] at found
    have before : (w.disk.loaded host).scripts.get? name = some stored := by
      rw [← synced.store]
      exact record.symm.trans found
    obtain ⟨names, files⟩ := lone name _ _ other (.intro before waiting)
    have apart : ¬ Mutation.Touches host mutation.name (.pending name) := by
      simp only [Mutation.Touches, Host.canonical_pending_eq, Host.canonical_pending_ne_scripts, false_or,
        not_or]
      exact ⟨fun same => names same.symm, fun same => files same.symm⟩
    rw [mutation.text?_run_of_not_touched w apart (by simp) (by simp)]
    exact .intro before waiting

theorem waits_run {mutation : Mutation} (synced : w.Synced host) (lone : Lone host w.disk mutation.name)
    (waits : Waits host (host.run (mutation.action host autoApprove) w).2.disk name md5 text) :
    Waits host w.disk name md5 text ∨ ∃ content staged metaYaml,
      mutation = .stage name content staged metaYaml ∧ md5 = some staged ∧ text = some content := by
  by_cases own : name = mutation.name
  · have ends := mutation.outcome host autoApprove w
    generalize host.run (mutation.action host autoApprove) w = result at ends waits
    subst own
    cases ends with
    | refused | unchanged => exact .inl waits
    | @staged target content md5 metaYaml =>
      cases waits with
      | intro found waiting =>
        simp only [World.staged, World.saved, Disk.loaded_saved, Mutation.name, Dict.get?_set_self] at found
        obtain rfl := Option.some.inj found
        obtain ⟨manual, recorded⟩ := stagedRecord_waiting waiting
        have manual : target ∉ autoApprove := of_decide_eq_false manual
        refine .inr ⟨content, md5, metaYaml, rfl, recorded, ?_⟩
        simp [World.staged, World.saved, Mutation.name, manual, Disk.text?_staged]
    | approved | rejected =>
      -- behind these the name does not wait
      exfalso
      cases waits with
      | intro found waiting =>
        simp only [World.approved, World.rejected, World.saved, Disk.loaded_saved, Mutation.name,
          Dict.get?_set_self, Option.some.injEq] at found
        subst found
        rcases waiting with waiting | waiting <;> cases waiting
    | cleared =>
      exfalso
      cases waits with
      | intro found => simp [World.cleared, World.saved, Mutation.name] at found
  · exact .inl (waits_other synced lone own waits)

end Versions

end Csl.Agent
