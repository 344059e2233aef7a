import Csl.Agent.Approvals.Agreement
import Csl.Agent.Approvals.Isolation

/-! An approved script is found and runs, as long as no two names share files.

Every file in the two directories belongs to a name with a record.
-/

set_option autoImplicit false

namespace Csl.Agent.Runnable
open Csl.Shared ApprovalsManager Runs Isolation Agreement

abbrev Call := String × Timestamp × Agreement.Request

def serve (host : Host) (autoApprove : List String) (w : World) (call : Call) : World :=
  Agreement.serve host autoApprove call.1 w call.2

/-- A submission is not refused, and the file it launches is the one that was promoted. -/
def Launches (host : Host) (w : World) (name : String) (params : Params) {A : Type} (submission : Action A) :
    Prop :=
  ∃ command : Command, command.script = .scripts name ∧
    attempt host submission w = ⟨none, [(command, buildEnv host params)]⟩

structure Runs (host : Host) (w : World) (name : String) : Prop where
  found : host.run (findScript host name) w = (.ok (.scripts name), w)
  promoted : Holds host w (.scripts name) ((w.record name).bind (·.approvedMd5))
  intact : host.run (verifyScriptIntegrity host name (.scripts name)
    (describe w.memory.store name).approvedMd5) w = (.ok (), w)
  runScript : ∀ params, checkParams host name params (w.disk.metadata host name) = .ok () →
    Launches host w name params (runScript host name params)
  start : ∀ params jobUuid, checkParams host name params (w.disk.metadata host name) = .ok () →
    host.logPath jobUuid ≠ none → Launches host w name params (ProcessManager.start host name params jobUuid)

def Apart (host : Host) (w : World) (call : Call) : Prop :=
  ∀ entry ∈ w.memory.store.scripts.entries, entry.1 ≠ call.1 →
    ¬ Collides host call.1 entry.1 ∧ ¬ Collides host entry.1 call.1

instance (host : Host) (w : World) (call : Call) : Decidable (Apart host w call) :=
  inferInstanceAs (Decidable (∀ entry ∈ w.memory.store.scripts.entries, entry.1 ≠ call.1 →
    ¬ Collides host call.1 entry.1 ∧ ¬ Collides host entry.1 call.1))

inductive InDirectories : Path → Prop where
  | scripts (file : String) : InDirectories (.scripts file)
  | pending (file : String) : InDirectories (.pending file)

/-- Known names share no files, each agrees with its record, and no file is anyone else's. -/
structure Orderly (host : Host) (w : World) : Prop where
  apart : ∀ a b, (w.record a).isSome → (w.record b).isSome → a ≠ b → ¬ Collides host a b
  agrees : ∀ name, (w.record name).isSome → Agrees host name w
  owned : ∀ path, InDirectories path → (w.disk.text? host path).isSome →
    ∃ owner, (w.record owner).isSome ∧ Mutation.Touches host owner path
  synced : w.Synced host

section
variable {host : Host} {w : World} {autoApprove : List String} {name : String}

theorem apart_iff {call : Call} : Apart host w call ↔
    ∀ other, (w.record other).isSome → other ≠ call.1 →
      ¬ Collides host call.1 other ∧ ¬ Collides host other call.1 := by
  constructor
  · intro apart other known differs
    obtain ⟨record, found⟩ := Option.isSome_iff_exists.mp known
    exact apart (other, record) (Dict.mem_of_get? found) differs
  · intro apart entry member differs
    apply apart entry.1 _ differs
    rw [World.record, Dict.get?_of_mem member]
    rfl

theorem text?_of_canonical {disk : Disk} {path other : Path} (same : host.canonical path = host.canonical other) :
    disk.text? host path = disk.text? host other := by
  unfold Disk.text? Disk.read
  rw [same]

theorem touches_cases (host : Host) {path : Path} (inside : InDirectories path) :
    ∃ file, ∀ name, Mutation.Touches host name path ↔
      host.SameFile file name ∨ host.SameFile file (metaFile name) := by
  cases inside with
  | scripts file => exact ⟨file, fun name => by simp [Mutation.Touches]⟩
  | pending file => exact ⟨file, fun name => by simp [Mutation.Touches]⟩

theorem collides_of_touches {owner : String} {path : Path} (inside : InDirectories path)
    (mine : Mutation.Touches host name path) (others : Mutation.Touches host owner path) :
    Collides host name owner := by
  obtain ⟨file, touches⟩ := touches_cases host inside
  rcases (touches name).mp mine with plain | ofMeta
  · rcases (touches owner).mp others with plain' | ofMeta'
    · exact .inl (plain.symm.trans plain')
    · exact .inr (.inl (plain.symm.trans ofMeta'))
  · rcases (touches owner).mp others with plain' | ofMeta'
    · exact .inr (.inr (.inl (ofMeta.symm.trans plain')))
    · exact .inl ((sameFile_metaFile_iff name owner).mp (ofMeta.symm.trans ofMeta'))

theorem unknown_file (orderly : Orderly host w) (unknown : w.record name = none)
    (apart : ∀ other, (w.record other).isSome → other ≠ name → ¬ Collides host name other) {path : Path}
    (inside : InDirectories path) (mine : Mutation.Touches host name path) :
    w.disk.text? host path = none := by
  by_contra there
  obtain ⟨owner, known, touches⟩ := orderly.owned path inside (Option.isSome_iff_ne_none.mpr there)
  have differs : owner ≠ name := by
    rintro rfl
    rw [unknown] at known
    cases known
  exact apart owner known differs (collides_of_touches inside mine touches)

theorem touches_own (host : Host) (name : String) :
    Mutation.Touches host name (.scripts name) ∧ Mutation.Touches host name (.scripts (metaFile name)) ∧
      Mutation.Touches host name (.pending name) ∧ Mutation.Touches host name (.pending (metaFile name)) :=
  ⟨.inl rfl, .inr (.inl rfl), .inr (.inr (.inl rfl)), .inr (.inr (.inr rfl))⟩

theorem stateOf_unknown (unknown : w.record name = none) : w.memory.store.stateOf name = .absent := by
  rw [ApprovalsStore.stateOf, show w.memory.store.scripts.get? name = none from unknown]
  rfl

theorem agrees_apart (orderly : Orderly host w)
    (apart : ∀ other, (w.record other).isSome → other ≠ name → ¬ Collides host name other) :
    Agrees host name w := by
  cases known : w.record name with
  | some record => exact orderly.agrees name (known ▸ rfl)
  | none =>
    have state := stateOf_unknown known
    obtain ⟨script, scriptMeta, pending, pendingMeta⟩ := touches_own host name
    constructor
    · rw [state]
      nofun
    · rw [state]
      nofun
    · rw [state]
      nofun
    · intro _
      refine ⟨?_, ?_, ?_, ?_⟩
      · exact unknown_file orderly known apart (.scripts _) script
      · exact unknown_file orderly known apart (.scripts _) scriptMeta
      · exact unknown_file orderly known apart (.pending _) pending
      · exact unknown_file orderly known apart (.pending _) pendingMeta
    · exact orderly.synced.store.symm

/-! ## One call -/

section
variable {call : Call}

theorem name_mutation (call : Call) : (call.2.2.mutation host call.1).name = call.1 := by
  obtain ⟨name, now, request⟩ := call
  cases request <;> rfl

theorem record_serve_of_ne {other : String} (apart : other ≠ call.1) :
    (serve host autoApprove w call).record other = w.record other := by
  have kept : _ = (w.atTime call.2.1).record other :=
    (call.2.2.mutation host call.1).record_run_of_ne host autoApprove (w.atTime call.2.1) (by rwa [name_mutation])
  exact kept

theorem text?_serve {path : Path} (apart : ¬ Mutation.Touches host call.1 path) (inside : InDirectories path) :
    (serve host autoApprove w call).disk.text? host path = w.disk.text? host path := by
  apply (call.2.2.mutation host call.1).text?_run_of_not_touched (w.atTime call.2.1)
  · rwa [name_mutation]
  · cases inside <;> nofun
  · cases inside <;> nofun

theorem agrees_congr {after : World} (agrees : Agrees host name w) (record : after.record name = w.record name)
    (same : ∀ path, InDirectories path → Mutation.Touches host name path →
      after.disk.text? host path = w.disk.text? host path)
    (synced : after.Synced host) : Agrees host name after := by
  obtain ⟨script, scriptMeta, pending, pendingMeta⟩ := touches_own host name
  have scriptText := same _ (.scripts _) script
  have scriptMetaText := same _ (.scripts _) scriptMeta
  have pendingText := same _ (.pending _) pending
  have pendingMetaText := same _ (.pending _) pendingMeta
  have state : after.memory.store.stateOf name = w.memory.store.stateOf name := by
    unfold ApprovalsStore.stateOf
    rw [show after.memory.store.scripts.get? name = w.memory.store.scripts.get? name from record]
  constructor
  · unfold Holds
    rw [state, record, scriptText, pendingText]
    exact agrees.approved
  · unfold Holds
    rw [state, record, pendingText]
    exact agrees.pending
  · unfold Holds
    rw [state, record, scriptText, pendingText]
    exact agrees.updatePending
  · rw [state, scriptText, scriptMetaText, pendingText, pendingMetaText]
    exact agrees.removed
  · exact synced.store.symm

theorem orderly_serve (orderly : Orderly host w) (apart : Apart host w call) :
    Orderly host (serve host autoApprove w call) := by
  rw [apart_iff] at apart
  have mine : Agrees host call.1 (serve host autoApprove w call) :=
    agrees_serve (agrees_apart orderly fun other known differs => (apart other known differs).1) call.2
  have synced : (serve host autoApprove w call).Synced host :=
    (call.2.2.mutation host call.1).synced_run ((World.synced_atTime host w call.2.1).mpr orderly.synced)
  -- A name that is known afterwards is that of the call, or was known before.
  have known : ∀ other, other ≠ call.1 → ((serve host autoApprove w call).record other).isSome →
      (w.record other).isSome := by
    intro other differs after
    rwa [record_serve_of_ne differs] at after
  constructor
  · intro a b knownA knownB differs
    by_cases ownA : a = call.1
    · subst ownA
      exact (apart b (known b (Ne.symm differs) knownB) (Ne.symm differs)).1
    · by_cases ownB : b = call.1
      · subst ownB
        exact (apart a (known a ownA knownA) ownA).2
      · exact orderly.apart a b (known a ownA knownA) (known b ownB knownB) differs
  · intro other after
    by_cases own : other = call.1
    · subst own
      exact mine
    · apply agrees_congr (orderly.agrees other (known other own after)) (record_serve_of_ne own) _ synced
      intro path inside touches
      apply text?_serve _ inside
      intro shared
      exact (apart other (known other own after) own).1 (collides_of_touches inside shared touches)
  · intro path inside there
    by_cases touches : Mutation.Touches host call.1 path
    · refine ⟨call.1, ?_, touches⟩
      by_contra unknown
      rw [Option.not_isSome_iff_eq_none] at unknown
      obtain ⟨script, scriptMeta, pending, pendingMeta⟩ := mine.removed (.inr (stateOf_unknown unknown))
      have none : (serve host autoApprove w call).disk.text? host path = none := by
        rcases touches with same | same | same | same
        · rw [text?_of_canonical same, script]
        · rw [text?_of_canonical same, scriptMeta]
        · rw [text?_of_canonical same, pending]
        · rw [text?_of_canonical same, pendingMeta]
      rw [none] at there
      cases there
    · rw [text?_serve touches inside] at there
      obtain ⟨owner, wasKnown, owns⟩ := orderly.owned path inside there
      refine ⟨owner, ?_, owns⟩
      have differs : owner ≠ call.1 := by
        rintro rfl
        exact touches owns
      rwa [record_serve_of_ne differs]
  · exact synced

end

theorem orderly_fresh (host : Host) : Orderly host World.fresh where
  apart := by
    intro a _ known
    cases known
  agrees := by
    intro name known
    cases known
  owned := by
    intro path _ there
    have nothing : World.fresh.disk.text? host path = none := rfl
    rw [nothing] at there
    cases there
  synced := fresh_synced host

/-! ## What an approved name can count on -/

theorem buildCommand_posix (posix : host.isWindows = false) (script : Path) :
    ∃ command, buildCommand host script = .ok command ∧ command.script = script := by
  cases built : buildCommand host script with
  | ok command => exact ⟨command, rfl, buildCommand_script built⟩
  | error e =>
    unfold buildCommand at built
    simp only [posix, Bool.false_eq_true, if_false] at built
    split_ifs at built

theorem foundScript_own (orderly : Orderly host w) (known : (w.record name).isSome)
    (present : (w.disk.text? host (.scripts name)).isSome) :
    w.disk.foundScript host name = .ok (.scripts name) := by
  apply foundScript_plain _ present
  intro ending member proper
  by_contra there
  obtain ⟨owner, knownOwner, touches⟩ :=
    orderly.owned _ (.scripts _) (Option.isSome_iff_ne_none.mpr there)
  have same : host.SameFile owner (name ++ ending) := by
    simp only [Mutation.Touches, Host.canonical_scripts_eq, Host.canonical_scripts_ne_pending, or_false] at touches
    rcases touches with plain | ofMeta
    · exact plain.symm
    · exact absurd ofMeta (not_sameFile_extension_metaFile member proper)
  have differs : owner ≠ name := by
    rintro rfl
    exact length_append_proper proper same.length_eq.symm
  exact orderly.apart owner name knownOwner known differs (.inr (.inr (.inr ⟨ending, member, proper, same⟩)))

theorem runs_of_orderly (posix : host.isWindows = false) (orderly : Orderly host w)
    (approved : w.memory.store.stateOf name = .approved) : Runs host w name := by
  have known : (w.record name).isSome := by
    by_contra unknown
    rw [stateOf_unknown (Option.not_isSome_iff_eq_none.mp unknown)] at approved
    cases approved
  have promoted : Holds host w (.scripts name) ((w.record name).bind (·.approvedMd5)) :=
    ((orderly.agrees name known).approved approved).1
  obtain ⟨content, text, md5⟩ := promoted
  -- no file of another name is found in its place
  have found : w.disk.foundScript host name = .ok (.scripts name) :=
    foundScript_own orderly known (text ▸ rfl)
  have recorded : (describe w.memory.store name).approvedMd5 = some (host.md5 content) :=
    (describe_approvedMd5 _ _).trans md5
  have intact : w.disk.integrity host name (.scripts name) (some (host.md5 content)) = .ok () := by
    simp [Disk.integrity, text]
  obtain ⟨command, built, script⟩ := buildCommand_posix posix (.scripts name)
  have state : (describe w.memory.store name).state = .approved := (describe_state _ _).trans approved
  have prepared : ∀ verb params, checkParams host name params (w.disk.metadata host name) = .ok () →
      w.disk.prepared host verb name params (describe w.memory.store name) =
        .ok (command, buildEnv host params) := by
    intro verb params valid
    unfold Disk.prepared
    rw [if_pos state, valid, found, recorded]
    simp only [bind, Except.bind, intact, built]
    rfl
  constructor
  · rw [run_findScript, found]
  · exact ⟨content, text, md5⟩
  · rw [run_verifyScriptIntegrity, recorded, intact]
  · intro params valid
    refine ⟨command, script, ?_⟩
    rw [attempt_runScript orderly.synced, prepared "run" params valid]
    rfl
  · intro params jobUuid valid located
    refine ⟨command, script, ?_⟩
    rw [attempt_start orderly.synced, prepared "start" params valid]
    cases log : host.logPath jobUuid with
    | none => exact absurd log located
    | some path => rfl

end

def twoApproved (a b : String) : List Call :=
  [(a, "1", .stage Installation.scriptOne none), (a, "2", .approve),
    (b, "3", .stage Installation.scriptTwo none), (b, "4", .approve)]

end Csl.Agent.Runnable
