import Csl.Agent.Approvals.Cache
import Csl.Library.Replies

/-! The approvals manager on a disk that fails.

Any call to the file system may raise an OSError. The manager sets its store before it saves it: a
save that fails before its rename leaves the store ahead of approvals.json, under the signature
that the file still has.
-/

set_option autoImplicit false

namespace Csl.Agent
open Csl.Shared ApprovalsManager Proc Cache Runs

namespace FailingDisk

/-- A failing call: the exception's text, and what a write that was cut short leaves in its file. -/
structure Fault where
  message : String
  left : Option String

/-- The calls to the file system to come, one after the other; those behind the list succeed. -/
abbrev Faults := List (Option Fault)

def OnDisk : Op → Bool
  | .mkdir _ | .exists? _ | .stat | .readText _ | .readBytes _ | .writeText .. | .replace .. | .unlink _ => true
  | _ => false

variable (host : Host)

def Fault.leaves (fault : Fault) (disk : Disk) : Op → Disk
  | .writeText path _ _ =>
    match fault.left with
    | some text => disk.write host path text
    | none => disk
  | _ => disk

/-- A write that fails may leave its file cut short; other failing calls change nothing. -/
def handle : Handler Op Reply Err (World × Faults) := fun op s =>
  let served := Agent.handle host op s.1
  if OnDisk op then
    match s.2.head?.join with
    | some fault => (.error (.osError fault.message), ({ s.1 with disk := fault.leaves host s.1.disk op }, s.2.tail))
    | none => (served.1, (served.2, s.2.tail))
  else (served.1, (served.2, s.2))

/-- The calls on which the manager's copy depends: those of a save up to its rename, and the
reading of approvals.json, whose exceptions `_load` takes for a file that does not parse. -/
def Vital : Op → Prop
  | .mkdir .agent | .writeText .approvalsTmp .. | .replace .approvalsTmp _ | .readText .approvals => True
  | _ => False

def Spared (op : Op) (reply : Except Err (Reply op)) : Prop := Vital op → ∃ a, reply = .ok a

instance : DecidablePred Vital := fun op => by
  unfold Vital
  split <;> infer_instance

instance (op : Op) (reply : Except Err (Reply op)) : Decidable (Spared op reply) :=
  match reply with
  | .ok a => isTrue fun _ => ⟨a, rfl⟩
  | .error _ => decidable_of_iff (¬ Vital op) ⟨fun other vital => absurd vital other, fun spared vital => by
      obtain ⟨_, answered⟩ := spared vital
      cases answered⟩

variable {host}

theorem handle_cases (op : Op) (s : World × Faults) :
    (∃ fault : Fault, OnDisk op = true ∧ handle host op s =
      (.error (.osError fault.message), ({ s.1 with disk := fault.leaves host s.1.disk op }, s.2.tail))) ∨
    ∃ left, handle host op s = ((Agent.handle host op s.1).1, ((Agent.handle host op s.1).2, left)) := by
  unfold handle
  cases onDisk : OnDisk op with
  | false => exact .inr ⟨s.2, rfl⟩
  | true =>
    cases next : s.2.head?.join with
    | none => exact .inr ⟨s.2.tail, by simp⟩
    | some fault => exact .inl ⟨fault, rfl, by simp⟩

theorem handle_apart {op : Op} (apart : OnDisk op = false) (s : World × Faults) :
    handle host op s = ((Agent.handle host op s.1).1, ((Agent.handle host op s.1).2, s.2)) := by
  unfold handle
  rw [apart]
  rfl

/-! ## Before the store is set -/

theorem untouched_fault (fault : Fault) {op : Op} (quiet : Quiet op) (w : World) :
    Untouched host w { w with disk := fault.leaves host w.disk op } := by
  cases op with
  | writeText path text newline =>
    cases cut : fault.left with
    | none =>
      have kept : fault.leaves host w.disk (.writeText path text newline) = w.disk := by
        simp only [Fault.leaves, cut]
      rw [kept]
      exact .refl w
    | some left =>
      have written : fault.leaves host w.disk (.writeText path text newline) = w.disk.write host path left := by
        simp only [Fault.leaves, cut]
      rw [written]
      refine ⟨rfl, ?_, Nat.le_succ _⟩
      change (w.disk.write host path left).read host .approvals = _
      rw [Disk.read_write, if_neg (apart_of_ofScripts quiet)]
  | _ => exact .refl w

theorem untouched_handle {op : Op} (quiet : Quiet op) (s : World × Faults) :
    Untouched host s.1 (handle host op s).2.1 := by
  rcases @handle_cases host op s with ⟨fault, _, failed⟩ | ⟨left, served⟩
  · rw [failed]
    exact untouched_fault fault quiet s.1
  · rw [served]
    exact untouched_quiet quiet s.1

theorem untouched_run {A : Type} {p : Action A} (uses : p.Uses Quiet) (s : World × Faults) :
    Untouched host s.1 (p.run (handle host) s).2.1 := by
  have serves : ∀ op (s' : World × Faults), Quiet op → Untouched host s.1 s'.1 →
      Untouched host s.1 (handle host op s').2.1 :=
    fun op s' quiet before => before.trans (untouched_handle quiet s')
  have leads : p.Leads (handle host) (fun _ _ => True) (fun _ s' => Untouched host s.1 s'.1) s :=
    uses.leads serves (.refl s.1)
  exact leads.run

/-! ## How a mutation ends -/

/-- A mutation ends before it sets the store, in a save that failed before its rename, or behind
the rename; `clear` says that no vital call failed. -/
inductive Ends (host : Host) (w : World) (clear : Prop) {A : Type} : Except Err A → World → Prop where
  | early {result : Except Err A} {after : World} : Untouched host w after → Ends host w clear result after
  | unsaved {e : Err} {after : World} :
      ¬ clear → after.disk.read host .approvals = w.disk.read host .approvals →
      w.disk.writes ≤ after.disk.writes → Ends host w clear (.error e) after
  | renamed {result : Except Err A} {after : World} {written : Disk} {store : ApprovalsStore} :
      w.disk.writes ≤ written.writes → after.disk = written.saved host store → after.memory.store = store →
      after.memory.sig = w.memory.sig ∨ after.memory.sig = after.disk.currentSig host →
      Ends host w clear result after

theorem Ends.mono {w : World} {clear weaker : Prop} {A : Type} {result : Except Err A} {after : World}
    (ends : Ends host w clear result after) (weakens : weaker → clear) : Ends host w weaker result after := by
  cases ends with
  | early untouched => exact .early untouched
  | unsaved failed file later => exact .unsaved (fun held => failed (weakens held)) file later
  | renamed later disk store sig => exact .renamed later disk store sig

theorem Ends.from {first w : World} {clear : Prop} {A : Type} {result : Except Err A} {after : World}
    (untouched : Untouched host first w) (ends : Ends host w clear result after) :
    Ends host first clear result after := by
  cases ends with
  | early rest => exact .early (untouched.trans rest)
  | unsaved failed file later => exact .unsaved failed (file.trans untouched.file) (untouched.later.trans later)
  | renamed later disk store sig =>
    rw [untouched.memory] at sig
    exact .renamed (untouched.later.trans later) disk store sig

theorem run_call (op : Op) (s : World × Faults) : (perform op).run (handle host) s = handle host op s :=
  run_perform _ _ _

abbrev EndsFrom {A : Type} (host : Host) (w : World) (p : Action A) (s : World × Faults) : Prop :=
  Ends host w (p.Clear (handle host) Spared s) (p.run (handle host) s).1 (p.run (handle host) s).2.1

theorem ends_served {A : Type} {w : World} (op : Op) {next : Reply op → Action A} {s : World × Faults}
    {left : Faults} (serves : handle host op s = ((Agent.handle host op s.1).1, ((Agent.handle host op s.1).2, left)))
    {reply : Reply op} (answered : (Agent.handle host op s.1).1 = .ok reply)
    (ends : EndsFrom host w (next reply) ((Agent.handle host op s.1).2, left)) :
    EndsFrom host w (perform op >>= next) s := by
  rw [answered] at serves
  have ran : (perform op >>= next).run (handle host) s = follow (handle host) next (handle host op s) := by
    rw [run_bind, run_call]
  have rest : (perform op >>= next).Clear (handle host) Spared s →
      (next reply).Clear (handle host) Spared ((Agent.handle host op s.1).2, left) := by
    intro clear
    apply (clear_bind.mp clear).2
    rw [run_call, serves]
  unfold EndsFrom
  rw [ran, serves]
  exact ends.mono rest

/-- A vital call of a save: it fails and leaves approvals.json alone, or the save goes on. -/
theorem ends_vital {A : Type} {w : World} (op : Op) (vital : Vital op) {next : Reply op → Action A}
    {s : World × Faults}
    (failed : ∀ fault : Fault, (fault.leaves host s.1.disk op).read host .approvals = w.disk.read host .approvals ∧
      w.disk.writes ≤ (fault.leaves host s.1.disk op).writes)
    (served : ∀ left, ∃ reply, (Agent.handle host op s.1).1 = .ok reply ∧
      EndsFrom host w (next reply) ((Agent.handle host op s.1).2, left)) :
    EndsFrom host w (perform op >>= next) s := by
  rcases @handle_cases host op s with ⟨fault, _, fails⟩ | ⟨left, serves⟩
  · have ran : (perform op >>= next).run (handle host) s = follow (handle host) next (handle host op s) := by
      rw [run_bind, run_call]
    have unclear : ¬ (perform op >>= next).Clear (handle host) Spared s := by
      intro clear
      obtain ⟨a, answered⟩ := clear_perform.mp (clear_bind.mp clear).1 vital
      rw [fails] at answered
      cases answered
    unfold EndsFrom
    rw [ran, fails]
    exact .unsaved unclear (failed fault).1 (failed fault).2
  · obtain ⟨reply, answered, ends⟩ := served left
    exact ends_served op serves answered ends

theorem read_tmp_apart (disk : Disk) (text : String) :
    (disk.write host .approvalsTmp text).read host .approvals = disk.read host .approvals := by
  rw [Disk.read_write, if_neg]
  simp [Host.canonical]

theorem ends_signed {A : Type} {w : World} {store : ApprovalsStore} (a : A) {s : World × Faults}
    (disk : s.1.disk = w.disk.saved host store) (memory : s.1.memory = ⟨store, w.memory.sig⟩) :
    EndsFrom host w (do
      let sig ← stat
      setSig sig
      return a) s := by
  have ran : (do
      let sig ← stat
      setSig sig
      return a : Action A).run (handle host) s =
        follow (handle host) (fun sig => setSig sig >>= fun _ => pure a) (handle host .stat s) := by
    rw [run_bind]
    exact congrArg _ (run_call .stat s)
  unfold EndsFrom
  rw [ran]
  rcases @handle_cases host .stat s with ⟨fault, _, fails⟩ | ⟨left, serves⟩
  · rw [fails]
    refine .renamed le_rfl disk ?_ (.inl ?_)
    · change s.1.memory.store = store
      rw [memory]
    · change s.1.memory.sig = w.memory.sig
      rw [memory]
  · rw [serves]
    refine .renamed le_rfl disk ?_ (.inr rfl)
    change s.1.memory.store = store
    rw [memory]

theorem ends_save {A : Type} (store : ApprovalsStore) (a : A) (s : World × Faults) :
    EndsFrom host s.1 (do
      setStore store
      save host
      return a) s := by
  obtain ⟨w, faults⟩ := s
  -- the store is set first, and every call of the save may fail from there on
  apply ends_served (.setStore store) (handle_apart rfl _) rfl
  unfold save
  simp only [bind_assoc]
  apply ends_vital (.mkdir .agent) trivial
  · exact fun _ => ⟨rfl, le_rfl⟩
  intro left
  refine ⟨(), rfl, ends_served .getStore (handle_apart rfl _) rfl ?_⟩
  apply ends_vital (.writeText .approvalsTmp (host.codec.dump store) .platform) trivial
  · intro fault
    cases cut : fault.left with
    | none => simp only [Fault.leaves, cut]; exact ⟨rfl, le_rfl⟩
    | some text => simp only [Fault.leaves, cut]; exact ⟨read_tmp_apart w.disk text, Nat.le_succ _⟩
  · intro left
    refine ⟨(), rfl, ?_⟩
    apply ends_vital (.replace .approvalsTmp .approvals) trivial
    · exact fun fault => ⟨read_tmp_apart w.disk _, Nat.le_succ _⟩
    · intro left
      -- the temporary file was written in full, so its rename leaves what a save leaves
      let wrote : World :=
        { w with memory := { w.memory with store }
                 disk := w.disk.write host .approvalsTmp (encode host .platform (host.codec.dump store)) }
      have written : (wrote.disk.read host .approvalsTmp).isSome := by
        rw [Disk.read_write, if_pos rfl]
        rfl
      have moved : Agent.handle host (.replace .approvalsTmp .approvals) wrote =
          (.ok (), { wrote with disk := w.disk.saved host store }) := by
        rw [Agent.handle, if_pos written]
        rfl
      refine ⟨(), congrArg Prod.fst moved, ?_⟩
      apply ends_signed
      · exact congrArg (fun ran => ran.2.disk) moved
      · exact congrArg (fun ran => ran.2.memory) moved

/-- However the disk fails, a program that saves last ends in one of three ways. -/
theorem ends_savesLast {A : Type} {p : Action A} (shape : SavesLast host p) (s : World × Faults) :
    EndsFrom host s.1 p s := by
  induction shape generalizing s with
  | quiet uses => exact .early (untouched_run uses s)
  | @seq B p next uses _ ih =>
    have before := @untouched_run host _ p uses s
    have ran := run_bind (handle host) p next s
    rcases first : p.run (handle host) s with ⟨result, after⟩
    rw [first] at before ran
    unfold EndsFrom
    rw [ran]
    cases result with
    | error e => exact .early before
    | ok b =>
      have rest : (p >>= next).Clear (handle host) Spared s → (next b).Clear (handle host) Spared after :=
        fun clear => (clear_bind.mp clear).2 b after first
      exact ((ih b after).from before).mono rest
  | save => exact ends_save _ _ s

/-! ## Reading -/

/-- How a lookup leaves its manager: as it was, with the contents of approvals.json, or, when a vital
call failed, with something else. -/
inductive Looked (host : Host) (w : World) (clear : Prop) : World → Prop where
  | same : Looked host w clear w
  | reread : Looked host w clear { w with memory := ⟨w.disk.loaded host, w.disk.currentSig host⟩ }
  | misread {after : World} : ¬ clear → after.disk = w.disk → Looked host w clear after

/-- Loading reads the contents, raises, or takes a failing read for an empty file. -/
theorem load_cases (s : World × Faults) :
    ((load host).run (handle host) s).2.1 = s.1 ∧
      ((∃ e, ((load host).run (handle host) s).1 = .error e) ∨
        ((load host).run (handle host) s).1 = .ok (s.1.disk.loaded host) ∨
        ¬ (load host).Clear (handle host) Spared s) := by
  have ran : (load host).run (handle host) s =
      follow (handle host) (fun present => if !present then pure .empty else
        MonadExcept.tryCatch (readText .approvals >>= fun text => pure (loadText host text)) fun _ => pure .empty)
        (handle host (.exists? .approvals) s) := by
    unfold load
    rw [run_bind]
    exact congrArg _ (run_call (.exists? .approvals) s)
  rcases @handle_cases host (.exists? .approvals) s with ⟨fault, _, fails⟩ | ⟨left, serves⟩
  · rw [ran, fails]
    exact ⟨rfl, .inl ⟨_, rfl⟩⟩
  · rw [ran, serves]
    cases found : s.1.disk.read host .approvals with
    | none =>
      have missing : (Agent.handle host (.exists? .approvals) s.1).1 = .ok false := by
        simp only [Agent.handle, found]
        rfl
      rw [missing]
      refine ⟨rfl, .inr (.inl ?_)⟩
      simp only [Disk.loaded, found]
      rfl
    | some file =>
      have present : (Agent.handle host (.exists? .approvals) s.1).1 = .ok true := by
        simp only [Agent.handle, found]
        rfl
      have read : Agent.handle host (.readText .approvals) s.1 = (.ok (Newlines.universal file.text), s.1) := by
        simp only [Agent.handle, found]
      rw [present]
      simp only [follow_ok, Bool.not_true, Bool.false_eq_true, if_false, run_tryCatch, run_bind]
      have reads : (readText .approvals).run (handle host) ((Agent.handle host (.exists? .approvals) s.1).2, left) =
          handle host (.readText .approvals) (s.1, left) := run_call _ _
      rw [reads]
      rcases @handle_cases host (.readText .approvals) (s.1, left) with ⟨fault, _, fails⟩ | ⟨left', serves'⟩
      · rw [fails]
        refine ⟨rfl, .inr (.inr fun clear => ?_)⟩
        -- The exception of the read is the one that `_load` does not let through.
        have inside := (clear_bind.mp clear).2 true (s.1, left) ((run_call _ _).trans (by rw [serves, present]; rfl))
        have reading := clear_perform.mp (clear_bind.mp (clear_of_tryCatch inside)).1
        obtain ⟨text, answered⟩ := reading trivial
        rw [fails] at answered
        cases answered
      · rw [serves', read]
        refine ⟨rfl, .inr (.inl ?_)⟩
        simp only [Disk.loaded, found]
        rfl

abbrev LooksFrom {A : Type} (host : Host) (w : World) (p : Action A) (s : World × Faults) : Prop :=
  Looked host w (p.Clear (handle host) Spared s) (p.run (handle host) s).2.1

theorem Looked.mono {w after : World} {clear weaker : Prop} (looked : Looked host w clear after)
    (weakens : weaker → clear) : Looked host w weaker after := by
  cases looked with
  | same => exact .same
  | reread => exact .reread
  | misread failed disk => exact .misread (fun held => failed (weakens held)) disk

theorem looks_bind {A B : Type} {w : World} {p : Action A} {next : A → Action B} {s : World × Faults}
    (raised : ∀ e after, p.run (handle host) s = (.error e, after) → after.1 = w)
    (rest : ∀ a after, p.run (handle host) s = (.ok a, after) → LooksFrom host w (next a) after) :
    LooksFrom host w (p >>= next) s := by
  have ran := run_bind (handle host) p next s
  unfold LooksFrom
  rw [ran]
  rcases first : p.run (handle host) s with ⟨result, after⟩
  cases result with
  | error e =>
    rw [follow_error, raised e after first]
    exact .same
  | ok a =>
    have clears : (p >>= next).Clear (handle host) Spared s → (next a).Clear (handle host) Spared after :=
      fun clear => (clear_bind.mp clear).2 a after first
    exact Looked.mono (rest a after first) clears

theorem looks_then {A B : Type} {w : World} {p : Action A} {next : A → Action B} {s : World × Faults}
    (looks : LooksFrom host w p s) (quiet : ∀ a s, ((next a).run (handle host) s).2.1 = s.1) :
    LooksFrom host w (p >>= next) s := by
  have clears : (p >>= next).Clear (handle host) Spared s → p.Clear (handle host) Spared s :=
    fun clear => (clear_bind.mp clear).1
  have kept := Looked.mono looks clears
  have ran := run_bind (handle host) p next s
  unfold LooksFrom
  rw [ran]
  rcases first : p.run (handle host) s with ⟨result, after⟩
  rw [first] at kept
  cases result with
  | error e => exact kept
  | ok a =>
    rw [follow_ok, quiet]
    exact kept

theorem stat_cases (s : World × Faults) :
    (∃ e left, stat.run (handle host) s = (.error e, (s.1, left))) ∨
      ∃ left, stat.run (handle host) s = (.ok (s.1.disk.currentSig host), (s.1, left)) := by
  have ran : stat.run (handle host) s = handle host .stat s := run_call .stat s
  rw [ran]
  rcases @handle_cases host .stat s with ⟨fault, _, fails⟩ | ⟨left, serves⟩
  · exact .inl ⟨_, _, fails⟩
  · exact .inr ⟨left, serves⟩

theorem looks_load {w : World} {next : ApprovalsStore → Action Unit} {s : World × Faults} (world : s.1 = w)
    (stores : ∀ s, s.1 = w → Looked host w True ((next (w.disk.loaded host)).run (handle host) s).2.1)
    (keeps : ∀ store s, ((next store).run (handle host) s).2.1.disk = s.1.disk) :
    LooksFrom host w (load host >>= next) s := by
  subst world
  obtain ⟨same, result⟩ := @load_cases host s
  have ran := run_bind (handle host) (load host) next s
  unfold LooksFrom
  rw [ran]
  rcases loaded : (load host).run (handle host) s with ⟨read, after⟩
  rw [loaded] at same result
  cases read with
  | error e =>
    rw [follow_error, same]
    exact .same
  | ok store =>
    rw [follow_ok]
    rcases result with ⟨e, raised⟩ | contents | unclear
    · cases raised
    · cases contents
      exact (stores after same).mono fun _ => trivial
    · apply Looked.misread
      · exact fun clear => unclear (clear_bind.mp clear).1
      · rw [keeps, same]

theorem looks_syncFromDisk (s : World × Faults) : LooksFrom host s.1 (syncFromDisk host) s := by
  unfold syncFromDisk
  apply looks_bind
  · intro e after raised
    rcases @stat_cases host s with ⟨_, left, failed⟩ | ⟨left, served⟩
    · rw [failed] at raised
      cases raised
      rfl
    · rw [served] at raised
      cases raised
  · intro sig after taken
    obtain ⟨rfl, world⟩ : sig = s.1.disk.currentSig host ∧ after.1 = s.1 := by
      rcases @stat_cases host s with ⟨_, left, failed⟩ | ⟨left, served⟩
      · rw [failed] at taken
        cases taken
      · rw [served] at taken
        cases taken
        exact ⟨rfl, rfl⟩
    have knows : getSig.run (handle host) after = (.ok after.1.memory.sig, after) := rfl
    apply looks_bind
    · intro e later raised
      rw [knows] at raised
      cases raised
    · intro known later asked
      rw [knows] at asked
      cases asked
      -- the file is read again only under another signature
      unfold onlyIf
      split
      · apply looks_load world
        · rintro ⟨_, faults⟩ here
          cases here
          exact .reread
        · intro store s'
          rfl
      · rw [← world]
        exact .same

theorem looks_getState (name : String) (s : World × Faults) : LooksFrom host s.1 (getState host name) s :=
  looks_then (looks_syncFromDisk s) fun _ _ => rfl

theorem looks_listAll (s : World × Faults) : LooksFrom host s.1 (listAll host) s :=
  looks_then (looks_syncFromDisk s) fun _ _ => rfl

/-! ## Runs -/

/-- What happens next: another manager is constructed in the agent's place, the agent's manager is
called, or another process, with a manager of its own, makes a mutation. -/
inductive Call where
  | construct
  | operation (operation : Operation)
  | elsewhere (memory : Memory) (autoApprove : List String) (mutation : Mutation)

structure Event where
  time : Timestamp
  faults : Faults
  call : Call

variable (host) (autoApprove : List String)

/-- The result of a call and the world it leaves. A constructor that raises leaves no manager behind. -/
def served (w : World) (event : Event) : Except Err Unit × World :=
  let now := w.atTime event.time
  match event.call with
  | .construct =>
    match (init host).run (handle host) (now, event.faults) with
    | (.ok _, after) => (.ok (), after.1)
    | (.error e, _) => (.error e, now)
  | .operation operation =>
    let ran := (operation.action host autoApprove).run (handle host) (now, event.faults)
    (ran.1, ran.2.1)
  | .elsewhere memory whitelist mutation =>
    let ran := (mutation.action host whitelist).run (handle host) ({ now with memory }, event.faults)
    (.ok (), { now with disk := ran.2.1.disk })

def serve (w : World) (event : Event) : World := (served host autoApprove w event).2

def Sparing (w : World) (event : Event) : Prop :=
  let s := (w.atTime event.time, event.faults)
  match event.call with
  | .construct => (init host).Clear (handle host) Spared s
  | .operation operation => (operation.action host autoApprove).Clear (handle host) Spared s
  | .elsewhere .. => True

instance (w : World) (event : Event) : Decidable (Sparing host autoApprove w event) := by
  obtain ⟨_, _, call⟩ := event
  cases call <;> unfold Sparing <;> infer_instance

/-- A mutation that raises leaves the store equal to approvals.json if it was, and whatever happened,
the next lookup acts on what approvals.json has. -/
structure KeepsStep (w : World) (event : Event) : Prop where
  still : ∀ mutation e, event.call = .operation (.mutate mutation) →
    (served host autoApprove w event).1 = .error e → w.memory.store = w.disk.loaded host →
      (serve host autoApprove w event).memory.store = (serve host autoApprove w event).disk.loaded host
  seen : ((serve host autoApprove w event).resynced host).memory.store =
    (serve host autoApprove w event).disk.loaded host

variable {host autoApprove} {w : World}

theorem ends_discard {A : Type} {p : Action A} {s : World × Faults} (ends : EndsFrom host w p s) :
    EndsFrom host w (do let _ ← p : Action Unit) s := by
  have clears : (do let _ ← p : Action Unit).Clear (handle host) Spared s → p.Clear (handle host) Spared s :=
    fun clear => (clear_bind.mp clear).1
  have kept := Ends.mono ends clears
  have ran := run_bind (handle host) p (fun _ => (pure () : Action Unit)) s
  unfold EndsFrom
  rw [ran]
  rcases first : p.run (handle host) s with ⟨result, after⟩
  rw [first] at kept
  cases kept with
  | early untouched => cases result <;> exact .early untouched
  | unsaved failed file later => exact .unsaved failed file later
  | renamed later disk store sig => cases result <;> exact .renamed later disk store sig

theorem ends_mutation (whitelist : List String) (mutation : Mutation) (s : World × Faults) :
    EndsFrom host s.1 (mutation.action host whitelist) s := by
  cases mutation with
  | stage name content md5 metaYaml =>
    exact ends_discard (ends_savesLast (savesLast_stage whitelist name content md5 metaYaml) s)
  | approve name => exact ends_savesLast (savesLast_approve name) s
  | reject name => exact ends_savesLast (savesLast_reject name) s
  | clear name => exact ends_savesLast (savesLast_clear name) s

theorem looks_lookup {A : Type} {p : Action A} {s : World × Faults} (looks : LooksFrom host s.1 p s) :
    LooksFrom host s.1 (do let _ ← p : Action Unit) s := looks_then looks fun _ _ => rfl

/-! ## What is kept -/

theorem Looked.cached {clear : Prop} {after : World} (looked : Looked host w clear after) (spared : clear)
    (cached : Cached host w.disk w.memory) : Cached host after.disk after.memory := by
  cases looked with
  | same => exact cached
  | reread => exact ⟨fun _ => rfl, cached.current, cached.current⟩
  | misread failed _ => exact absurd spared failed

theorem Ends.cached {clear : Prop} {A : Type} {result : Except Err A} {after : World}
    (ends : Ends host w clear result after) (spared : clear) (cached : Cached host w.disk w.memory) :
    Cached host after.disk after.memory := by
  cases ends with
  | early untouched => exact untouched.cached cached
  | unsaved failed => exact absurd spared failed
  | @renamed _ _ written store later disk saved sig =>
    have current := currentSig_saved host written store
    have writes : (written.saved host store).writes = written.writes + 1 := rfl
    have past := cached.past
    rw [disk]
    constructor
    · intro _
      rw [saved, Disk.loaded_saved]
    · rcases sig with old | new
      · rw [old]
        omega
      · rw [new, disk]
        omega
    · omega

theorem Ends.still {clear : Prop} {A : Type} {result : Except Err A} {after : World}
    (ends : Ends host w clear result after) (spared : clear) (inStep : w.memory.store = w.disk.loaded host) :
    after.memory.store = after.disk.loaded host := by
  cases ends with
  | early untouched => rw [untouched.memory, untouched.loaded, inStep]
  | unsaved failed => exact absurd spared failed
  | renamed later disk saved _ => rw [disk, saved, Disk.loaded_saved]

/-- However another process fails, approvals.json is the same file or one written since. -/
theorem Ends.renews {clear : Prop} {A : Type} {result : Except Err A} {after : World}
    (ends : Ends host w clear result after) : w.disk.Renews host after.disk := by
  cases ends with
  | early untouched => exact ⟨untouched.later, .inl untouched.file⟩
  | unsaved _ file later => exact ⟨later, .inl file⟩
  | renamed later disk _ _ =>
    rw [disk]
    exact renews_saved later _

theorem constructs {s after : World × Faults} (returned : (init host).run (handle host) s = (.ok (), after)) :
    Looked host s.1 ((init host).Clear (handle host) Spared s) after.1 := by
  obtain ⟨same, result⟩ := @load_cases host s
  unfold init at returned ⊢
  rw [run_bind] at returned
  rcases loaded : (load host).run (handle host) s with ⟨read, left⟩
  rw [loaded] at same result returned
  cases read with
  | error e => cases returned
  | ok store =>
    rw [follow_ok, run_bind] at returned
    have sets : (setStore store).run (handle host) left =
        (.ok (), ({ left.1 with memory := { left.1.memory with store } }, left.2)) := rfl
    rw [sets, follow_ok, run_bind] at returned
    rcases @stat_cases host ({ left.1 with memory := { left.1.memory with store } }, left.2) with
      ⟨_, _, failed⟩ | ⟨rest, taken⟩
    · rw [failed] at returned
      cases returned
    · rw [taken] at returned
      cases returned
      rcases result with ⟨e, raised⟩ | contents | unclear
      · cases raised
      · cases contents
        obtain ⟨world, faults⟩ := left
        cases same
        exact .reread
      · refine .misread (fun clear => unclear (clear_bind.mp clear).1) ?_
        change left.1.disk = s.1.disk
        exact congrArg World.disk (show left.1 = s.1 from same)

theorem cached_serve {event : Event} (cached : Cached host w.disk w.memory) (sparing : Sparing host autoApprove w event) :
    Cached host (serve host autoApprove w event).disk (serve host autoApprove w event).memory := by
  obtain ⟨now, faults, call⟩ := event
  cases call with
  | construct =>
    unfold serve served
    dsimp only
    rcases ran : (init host).run (handle host) (w.atTime now, faults) with ⟨e | _, after⟩
    · exact cached
    · exact (constructs ran).cached sparing cached
  | elsewhere memory whitelist mutation =>
    have ends := @ends_mutation host whitelist mutation ({ w.atTime now with memory }, faults)
    exact cached_renewed cached ends.renews
  | operation operation =>
    cases operation with
    | getState name => exact Looked.cached (looks_lookup (looks_getState name (w.atTime now, faults))) sparing cached
    | listAll => exact Looked.cached (looks_lookup (looks_listAll (w.atTime now, faults))) sparing cached
    | mutate mutation =>
      exact (ends_mutation autoApprove mutation (w.atTime now, faults)).cached sparing cached

theorem seen_of_cached (cached : Cached host w.disk w.memory) :
    (w.resynced host).memory.store = w.disk.loaded host := by
  unfold World.resynced
  split
  next same => exact cached.store same.symm
  · rfl

theorem cached_fresh : Cached host World.fresh.disk World.fresh.memory :=
  ⟨fun _ => rfl, le_rfl, le_rfl⟩

/-- In every run in which no vital call of the agent's manager fails, whatever else fails and whatever
other processes do: a mutation that raises leaves the manager's store equal to approvals.json if it
was, and lookups act on what approvals.json has. -/
theorem failing_disk_keeps_step (host : Host) (autoApprove : List String) (events : List Event)
    (sparing : Meets (serve host autoApprove) (Sparing host autoApprove) World.fresh events) :
    ∀ before event after, events = before ++ event :: after →
      KeepsStep host autoApprove (run (serve host autoApprove) World.fresh before) event := by
  intro before event after split
  subst split
  obtain ⟨prior, now, _⟩ := meets_append.mp sparing
  have cached : ∀ w : World, Cached host w.disk w.memory → ∀ event, Sparing host autoApprove w event →
      Cached host (serve host autoApprove w event).disk (serve host autoApprove w event).memory :=
    fun w cached event spared => cached_serve cached spared
  have reached : Cached host (run (serve host autoApprove) World.fresh before).disk
      (run (serve host autoApprove) World.fresh before).memory :=
    invariant_run (fun w : World => Cached host w.disk w.memory) (fun w event held spared => cached w held event spared)
      cached_fresh prior
  constructor
  · intro mutation e mutates _ inStep
    obtain ⟨now', faults, call⟩ := event
    cases mutates
    exact (ends_mutation autoApprove mutation (_, faults)).still now inStep
  · exact seen_of_cached (cached_serve reached now)

/-! ## A save that fails -/

section
open Installation

def diskFull (left : Option String) : Option Fault := some ⟨"No space left on device", left⟩

def cutShort : Event :=
  ⟨"1", [none, diskFull (some "echo")], .operation (.mutate (.stage "deploy" scriptOne md5One none))⟩

theorem failing_disk_keeps_step_cut_short : KeepsStep linux [] World.fresh cutShort :=
  failing_disk_keeps_step linux [] [cutShort] (by decide +kernel) [] cutShort [] rfl

def staged : World :=
  serve linux [] World.fresh ⟨"1", [], .operation (.mutate (.stage "deploy" scriptOne md5One none))⟩

def failingApproval : Event :=
  ⟨"2", [none, none, none, none, none, none, diskFull none], .operation (.mutate (.approve "deploy"))⟩

/-- The approval is reported as failed and is on no disk, and the next lookup finds it. -/
theorem failed_approval_is_seen :
    staged.memory.store = staged.disk.loaded linux ∧
      (served linux [] staged failingApproval).1 = .error (.osError "No space left on device") ∧
      (staged.disk.loaded linux).stateOf "deploy" = .pending ∧
      (((serve linux [] staged failingApproval).resynced linux).memory.store.stateOf "deploy") = .approved ∧
      ¬ KeepsStep linux [] staged failingApproval := by
  have inStep : staged.memory.store = staged.disk.loaded linux := by decide +kernel
  have raised : (served linux [] staged failingApproval).1 = .error (.osError "No space left on device") := by
    decide +kernel
  refine ⟨inStep, raised, by decide +kernel, by decide +kernel, fun kept => ?_⟩
  have equal := kept.still (.approve "deploy") _ rfl raised inStep
  revert equal
  decide +kernel

end

end FailingDisk

end Csl.Agent
