import Csl.Server.Auth.Installation
import Csl.Server.Session.Rules
import Csl.Server.Web.Admin

/-! That the control station keeps an administrator.

A request checks who calls and commits its change later; in between the caller may cease to be
an administrator.
-/

set_option autoImplicit false

namespace Csl.Server.Session
open Csl.Shared Csl.Agent Transactions Proc Runs

def Account.Enabled (account : Account) : Prop := account.role = .admin ∧ account.disabled = false

instance (account : Account) : Decidable account.Enabled := inferInstanceAs (Decidable (_ ∧ _))

def Rows.HasAdmin (rows : Rows) : Prop := ∃ account ∈ rows.users, account.Enabled

instance (rows : Rows) : Decidable rows.HasAdmin := List.decidableBEx _ _

namespace AdminKept

inductive UserRequest where
  | toggle (userId : Nat) (access : Option String)
  | role (userId : Nat) (role : String) (access : Option String)

variable (runtime : Runtime)

def callerOf (access : Option String) : Option Nat :=
  access.bind fun token => (runtime.accessClaims token).map (·.1)

def UserRequest.work : UserRequest → Work Answer
  | .toggle userId access => withSession (Web.adminUserToggle runtime userId access)
  | .role userId newRole access => withSession (Web.adminUserRole runtime userId newRole access)

def UserRequest.caller : UserRequest → Option Nat
  | .toggle _ access | .role _ _ access => callerOf runtime access

/-- Only someone else's row is written. -/
def Spares (caller : Option Nat) : Op → Prop
  | .query (.updateUser userId _ _) => caller ≠ some userId
  | .query statement => statement.writes = false
  | .commit | .close | .utcNow => True

section
variable {runtime} {access : Option String} {good : Answer → Prop}

theorem caller_of_decoded {now : Nat} {token : String} {userId : Nat}
    (decoded : decodeAccessToken runtime now token = some userId) :
    callerOf runtime (some token) = some userId := by
  rw [decodeAccessToken] at decoded
  split at decoded
  · cases decoded
  next claims =>
    split_ifs at decoded
    cases decoded
    simp [callerOf, claims]

theorem keeps_webCurrentUser :
    (webCurrentUser runtime access).Keeps Credible (Spares (callerOf runtime access))
      fun user => callerOf runtime access = some user.id := by
  cases access with
  | none => exact keeps_throw
  | some token =>
    apply keeps_then trivial
    intro now _
    split
    · exact keeps_throw
    next userId decoded =>
      apply keeps_run
      · rfl
      intro user found
      cases user with
      | none => exact keeps_throw
      | some user =>
        dsimp only
        split_ifs
        · exact keeps_throw
        · apply keeps_pure
          rw [caller_of_decoded decoded, found user rfl]

theorem keeps_webRequireAdmin :
    (webRequireAdmin runtime access).Keeps Credible (Spares (callerOf runtime access))
      fun user => callerOf runtime access = some user.id ∧ user.role = .admin := by
  apply keeps_bind keeps_webCurrentUser
  intro user caller
  split_ifs with admin
  · exact keeps_throw
  · exact keeps_pure ⟨caller, not_not.mp admin⟩

theorem keeps_toggle (userId : Nat) :
    (Web.adminUserToggle runtime userId access).Keeps Credible (Spares (callerOf runtime access))
      fun _ => True := by
  apply keeps_bind keeps_webRequireAdmin
  rintro admin ⟨caller, _⟩
  apply keeps_run
  · rfl
  intro target _
  cases target with
  | none => exact keeps_pure trivial
  | some target =>
    rw [Option.map_some]
    dsimp only
    by_cases self : target.id = admin.id
    · rw [Web.heldOr_own self, if_pos rfl]
      exact keeps_pure trivial
    · rw [Web.heldOr_other self, if_neg self]
      apply keeps_run
      · intro same
        exact self (Option.some.inj (caller.symm.trans same)).symm
      · intro _ _
        exact keeps_then trivial fun _ _ => keeps_pure trivial

theorem keeps_role (userId : Nat) (role : String) :
    (Web.adminUserRole runtime userId role access).Keeps Credible (Spares (callerOf runtime access))
      fun _ => True := by
  apply keeps_bind keeps_webRequireAdmin
  rintro admin ⟨caller, isAdmin⟩
  split
  · exact keeps_pure trivial
  next newRole known =>
    apply keeps_run
    · rfl
    intro target _
    cases target with
    | none => exact keeps_pure trivial
    | some target =>
      have commits : ∀ answer : Answer, (commit >>= fun _ => pure answer : Work Answer).Keeps Credible
          (Spares (callerOf runtime access)) fun _ => True :=
        fun answer => keeps_then trivial fun _ _ => keeps_pure trivial
      rw [Option.map_some]
      dsimp only
      by_cases self : target.id = admin.id
      · rw [Web.heldOr_own self]
        split_ifs with demotes same
        · exact keeps_pure trivial
        · exact commits _
        · -- Its own row says administrator as it was loaded, and is not written.
          have stays : newRole = .admin := by
            by_contra other
            exact demotes ⟨rfl, other⟩
          exact absurd (stays.trans isAdmin.symm) same
      · rw [Web.heldOr_other self, if_neg fun demotes => self demotes.1]
        split_ifs
        · exact commits _
        · apply keeps_run
          · intro same
            exact self (Option.some.inj (caller.symm.trans same)).symm
          · intro _ _
            exact commits _

theorem keeps_work (request : UserRequest) :
    (UserRequest.work runtime request).Keeps Credible (Spares (UserRequest.caller runtime request))
      fun _ => True := by
  apply Keeps.mono _ (fun _ may => may) (fun _ _ => trivial)
  · exact fun _ => True
  · cases request with
    | toggle userId access => exact keeps_withSession trivial (keeps_toggle userId)
    | role userId role access => exact keeps_withSession trivial (keeps_role userId role)

end

/-! ## What a commit takes away -/

/-- No row of the caller that was an enabled administrator's has ceased to be one. -/
def KeepsCaller (caller : Option Nat) (before after : Rows) : Prop :=
  ∀ account ∈ before.users, caller = some account.id → account.Enabled →
    ∃ later ∈ after.users, later.id = account.id ∧ later.Enabled

def Demotes (before after : Rows) : Prop :=
  ∃ account ∈ before.users, account.Enabled ∧
    ∀ later ∈ after.users, later.id = account.id → ¬ later.Enabled

instance (before after : Rows) : Decidable (Demotes before after) := List.decidableBEx _ _

def Administers (rows : Rows) (userId : Option Nat) : Prop :=
  ∃ account ∈ rows.users, userId = some account.id ∧ account.Enabled

instance (rows : Rows) (userId : Option Nat) : Decidable (Administers rows userId) :=
  List.decidableBEx _ _

/-- A commit that disables or demotes an administrator finds its caller still to be one. -/
def Authorised (requests : Nat → UserRequest) (number : Nat) (op : Op) (s : Shared) : Prop :=
  match op with
  | .commit =>
    Demotes s.store.committed (s.store.view number) →
      Administers s.store.committed (UserRequest.caller runtime (requests number))
  | _ => True

instance (requests : Nat → UserRequest) (number : Nat) :
    (op : Op) → (s : Shared) → Decidable (Authorised runtime requests number op s)
  | .commit, s => inferInstanceAs (Decidable (Demotes _ (s.store.view number) → Administers _ _))
  | .query _, _ | .close, _ | .utcNow, _ => isTrue trivial

variable {runtime} {requests : Nat → UserRequest}

theorem keepsCaller_of_users {caller : Option Nat} {before after : Rows} (same : after.users = before.users) :
    KeepsCaller caller before after := by
  intro account member _ enabled
  exact ⟨account, same ▸ member, rfl, enabled⟩

theorem KeepsCaller.trans {caller : Option Nat} {first second third : Rows}
    (one : KeepsCaller caller first second) (two : KeepsCaller caller second third) :
    KeepsCaller caller first third := by
  intro account member own enabled
  obtain ⟨later, found, same, still⟩ := one account member own enabled
  obtain ⟨last, held, equal, ends⟩ := two later found (same ▸ own) still
  exact ⟨last, held, equal.trans same, ends⟩

/-- A statement that spares its caller leaves the caller's row an administrator's. -/
theorem keepsCaller_run {connection : Nat} {rows : Rows} {caller : Option Nat} {statement : Statement}
    (spares : Spares caller (.query statement)) :
    KeepsCaller caller rows (statement.run connection rows).2 := by
  cases statement with
  | updateUser userId role disabled =>
    simp only [Statement.run, Rows.present]
    split_ifs
    · intro account member own enabled
      refine ⟨_, List.mem_map_of_mem member, ?_⟩
      by_cases target : account.id = userId
      · exact absurd (target ▸ own) spares
      · rw [if_neg target]
        exact ⟨rfl, enabled⟩
    · exact keepsCaller_of_users rfl
  | _ =>
    rw [run_reads spares]
    exact keepsCaller_of_users rfl

/-- The change that a commit publishes leaves an enabled administrator when it is authorised. -/
theorem hasAdmin_published {before after : Rows} {caller : Option Nat} (starts : before.HasAdmin)
    (keeps : KeepsCaller caller before after)
    (authorised : Demotes before after → Administers before caller) : after.HasAdmin := by
  by_cases demotes : Demotes before after
  · obtain ⟨account, member, own, enabled⟩ := authorised demotes
    obtain ⟨later, found, _, still⟩ := keeps account member own enabled
    exact ⟨later, found, still⟩
  · obtain ⟨account, member, enabled⟩ := starts
    by_contra none
    refine demotes ⟨account, member, enabled, ?_⟩
    intro later found _ still
    exact none ⟨later, found, still⟩

variable (runtime requests) in
def Changes (connection : Nat) (before after : Rows) : Prop :=
  KeepsCaller ((requests connection).caller runtime) before after

theorem keepsCaller_path {connection : Nat} {before after : Rows}
    (path : Relation.ReflTransGen (Changes runtime requests connection) before after) :
    KeepsCaller ((requests connection).caller runtime) before after := by
  induction path with
  | refl => exact keepsCaller_of_users rfl
  | tail _ last ih => exact ih.trans last

variable (runtime requests) in
def Kept (s : Shared) : Prop :=
  Descends (Changes runtime requests) s.store ∧ s.store.committed.HasAdmin

theorem kept_handle {number : Nat} {op : Op} {s : Shared}
    (spares : Spares ((requests number).caller runtime) op)
    (authorised : Authorised runtime requests number op s) (kept : Kept runtime requests s) :
    Kept runtime requests (handle number op s).2 := by
  constructor
  · apply descends_handle _ kept.1
    intro statement same
    subst same
    exact keepsCaller_run spares
  · have done := handled number op s
    generalize (handle number op s).2.store = after at done
    cases done with
    | same | written => exact kept.2
    | closed =>
      rw [Store.committed_rollback]
      exact kept.2
    | committed =>
      rcases s.store.commit_cases number with same | ⟨_, published⟩
      · rw [same]
        exact kept.2
      · rw [published]
        exact hasAdmin_published kept.2 (keepsCaller_path kept.1.view) authorised

/-- In every run of user administration requests whose commits are authorised: there is an
enabled administrator in every committed state. -/
theorem administrator_remains (runtime : Runtime) (requests : Nat → UserRequest) (rows : Rows) (now : Nat)
    (starts : rows.HasAdmin) (turns : List (Turn Nat))
    (authorised : Meets (serve fun number => (requests number).work runtime)
      (Pool.Served (Authorised runtime requests)) (Pool.empty (opened rows now)) turns) :
    (Runs.run (serve fun number => (requests number).work runtime)
      (Pool.empty (opened rows now)) turns).shared.store.committed.HasAdmin := by
  have initial : Kept runtime requests (opened rows now) := ⟨descends_of_free rfl, starts⟩
  have ticks : ∀ seconds s, Kept runtime requests s → Kept runtime requests (tick seconds s) :=
    fun _ _ kept => kept
  have kept := (Pool.shared_run (fun number op s _ => credible_handle number op s) (fun number => keeps_work (requests number))
    (fun _ _ _ => kept_handle) ticks initial authorised).2
  exact kept.2

/-! ## Two administrators -/

def twoAdmins : Runtime := .reading station [("ada", 1), ("grace", 2)] []

def adminRow (id : Nat) (username : String) : Account := ⟨⟨id, .admin⟩, username, "", false⟩

def adminRows : Rows := { Rows.empty with users := [adminRow 1 "ada", adminRow 2 "grace"] }

def eachOther (number : Nat) : UserRequest :=
  if number = 0 then .toggle 2 (some "ada") else .toggle 1 (some "grace")

def alone (number : Nat) : List (Turn Nat) := .start number :: List.replicate 6 (.serve number)

theorem administrator_remains_after_toggle :
    (Runs.run (serve fun number => (eachOther number).work twoAdmins)
      (Pool.empty (opened adminRows 0)) (alone 0 ++ alone 1)).shared.store.committed.HasAdmin := by
  apply administrator_remains
  · decide +kernel
  · decide +kernel

/-- Both requests check their callers before either commits. -/
def crossed : List (Turn Nat) :=
  [.start 0, .start 1] ++ List.replicate 3 (.serve 0) ++ List.replicate 3 (.serve 1) ++
    List.replicate 3 (.serve 0) ++ List.replicate 3 (.serve 1)

theorem last_administrators_disable_each_other :
    adminRows.HasAdmin ∧
      ¬ (Runs.run (serve fun number => (eachOther number).work twoAdmins)
        (Pool.empty (opened adminRows 0)) crossed).shared.store.committed.HasAdmin := by
  constructor <;> decide +kernel

end AdminKept

end Csl.Server.Session
