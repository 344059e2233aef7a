import Csl.Library.Alone
import Csl.Server.Auth.Dependencies
import Csl.Server.Session.Rules

/-! Rules for a request that is handled while there is no other.

Its run is followed with the committed rows and the rows as the request sees them. Every commit
meets a condition on the two.
-/

set_option autoImplicit false

namespace Csl.Server.Session
open Csl.Shared Csl.Agent Transactions Proc

structure At (s : Shared) (committed view : Rows) (now : Nat) : Prop where
  free : s.store.locked 0 = false
  committed : s.store.committed = committed
  view : s.store.view 0 = view
  now : s.now = now

def Demand (publishes : Rows → Rows → Prop) : Op → Shared → Prop
  | .commit, s => publishes s.store.committed (s.store.view 0)
  | .query _, _ | .close, _ | .utcNow, _ => True

/-- From these rows on, the commits meet the condition, and the end is as described by the rows
that are committed then and those that the request sees. -/
def Does {A : Type} (publishes : Rows → Rows → Prop) (now : Nat)
    (ends : Except Raised A → Rows → Rows → Prop) (work : Work A) (committed view : Rows) : Prop :=
  ∀ s, At s committed view now → work.Leads (handle 0) (Demand publishes)
    (fun result s => ∃ committed view, At s committed view now ∧ ends result committed view) s

theorem opened_at (rows : Rows) (now : Nat) : At (opened rows now) rows rows now := ⟨rfl, rfl, rfl, rfl⟩

theorem At.write {s : Shared} {committed view : Rows} {now : Nat} (there : At s committed view now)
    (rows : Rows) : At { s with store := s.store.write 0 rows } committed rows now where
  free := by simp [Store.locked]
  committed := there.committed
  view := Store.view_own rfl
  now := there.now

theorem At.writer {s : Shared} {committed view : Rows} {now : Nat} (there : At s committed view now) :
    (s.store.writer = none ∧ committed = view) ∨ s.store.writer = some (0, view) := by
  rcases Store.writer_of_not_locked there.free with none | ⟨tables, own⟩
  · refine .inl ⟨none, ?_⟩
    rw [← there.committed, ← there.view, Store.view_free none]
  · refine .inr ?_
    rw [own, ← there.view, Store.view_own own]

theorem At.commit {s : Shared} {committed view : Rows} {now : Nat} (there : At s committed view now) :
    At { s with store := s.store.commit 0 } view view now := by
  rcases there.writer with ⟨none, same⟩ | own
  · rw [Store.commit_free none]
    exact ⟨there.free, there.committed.trans same, there.view, there.now⟩
  · rw [Store.commit_own own]
    exact ⟨rfl, rfl, rfl, there.now⟩

theorem At.close {s : Shared} {committed view : Rows} {now : Nat} (there : At s committed view now) :
    At { s with store := s.store.rollback 0 } committed committed now := by
  rcases there.writer with ⟨none, same⟩ | own
  · rw [Store.rollback_free none]
    exact ⟨there.free, there.committed, there.view.trans same.symm, there.now⟩
  · rw [Store.rollback_own own]
    exact ⟨rfl, there.committed, there.committed, there.now⟩

theorem At.query {s : Shared} {committed view : Rows} {now : Nat} (there : At s committed view now)
    (statement : Statement) :
    (handle 0 (.query statement) s).1 = (statement.run 0 view).1 ∧
      At (handle 0 (.query statement) s).2 committed (statement.run 0 view).2 now := by
  simp only [handle, there.free, there.view]
  by_cases writes : statement.writes = true
  · simp only [writes, if_true]
    exact ⟨rfl, there.write _⟩
  · have reads : statement.writes = false := by simpa using writes
    simp only [reads, Bool.false_eq_true, if_false, true_and]
    rw [run_reads reads]
    exact there

section
variable {A B : Type} {publishes : Rows → Rows → Prop} {now : Nat} {committed view : Rows}
  {ends : Except Raised A → Rows → Rows → Prop}

theorem does_pure {a : A} (ended : ends (.ok a) committed view) :
    Does publishes now ends (pure a) committed view := by
  intro s there
  exact leads_pure ⟨committed, view, there, ended⟩

theorem does_throw {e : Raised} (ended : ends (.error e) committed view) :
    Does publishes now ends (throw e) committed view := by
  intro s there
  exact leads_throw ⟨committed, view, there, ended⟩

def Onward (publishes : Rows → Rows → Prop) (now : Nat) (ends : Except Raised B → Rows → Rows → Prop)
    (next : A → Work B) : Except Raised A → Rows → Rows → Prop
  | .ok a => Does publishes now ends (next a)
  | .error e => ends (.error e)

theorem does_bind {ends : Except Raised B → Rows → Rows → Prop} {work : Work A} {next : A → Work B}
    (does : Does publishes now (Onward publishes now ends next) work committed view) :
    Does publishes now ends (work >>= next) committed view := by
  intro s there
  apply leads_bind
  apply (does s there).mono
  intro result after ended
  obtain ⟨committed, view, there, ended⟩ := ended
  cases result with
  | ok a => exact ended after there
  | error e => exact ⟨committed, view, there, ended⟩

theorem Does.mono {weaker : Except Raised A → Rows → Rows → Prop} {work : Work A}
    (does : Does publishes now ends work committed view)
    (weakens : ∀ result committed view, ends result committed view → weaker result committed view) :
    Does publishes now weaker work committed view := by
  intro s there
  apply (does s there).mono
  intro result after ended
  obtain ⟨committed, view, there, ended⟩ := ended
  exact ⟨committed, view, there, weakens _ _ _ ended⟩

def Rescued (publishes : Rows → Rows → Prop) (now : Nat) (ends : Except Raised A → Rows → Rows → Prop)
    (recover : Raised → Work A) : Except Raised A → Rows → Rows → Prop
  | .ok a => ends (.ok a)
  | .error e => Does publishes now ends (recover e)

theorem does_tryCatch {work : Work A} {recover : Raised → Work A}
    (does : Does publishes now (Rescued publishes now ends recover) work committed view) :
    Does publishes now ends (MonadExcept.tryCatch work recover) committed view := by
  intro s there
  apply leads_tryCatch
  apply (does s there).mono
  intro result after ended
  obtain ⟨committed, view, there, ended⟩ := ended
  cases result with
  | ok a => exact ⟨committed, view, there, ended⟩
  | error e => exact ended after there

theorem does_statement {statement : Statement} {ends : Except Raised statement.Reply → Rows → Rows → Prop}
    (ended : ends (statement.run 0 view).1 committed (statement.run 0 view).2) :
    Does publishes now ends (run statement) committed view := by
  intro s there
  obtain ⟨answered, after⟩ := there.query statement
  refine leads_perform trivial ⟨committed, _, after, ?_⟩
  rw [answered]
  exact ended

theorem does_run {statement : Statement} {next : statement.Reply → Work A}
    (answers : ∀ reply, (statement.run 0 view).1 = .ok reply →
      Does publishes now ends (next reply) committed (statement.run 0 view).2)
    (fails : ∀ e, (statement.run 0 view).1 = .error e → ends (.error e) committed (statement.run 0 view).2) :
    Does publishes now ends (run statement >>= next) committed view := by
  apply does_bind
  apply does_statement
  cases answered : (statement.run 0 view).1 with
  | ok reply => exact answers reply answered
  | error e => exact fails e answered

theorem does_select {statement : Statement} {next : statement.Reply → Work A}
    (reads : statement.writes = false)
    (answers : ∀ reply, (statement.run 0 view).1 = .ok reply →
      Does publishes now ends (next reply) committed view)
    (fails : ∀ e, ends (.error e) committed view) :
    Does publishes now ends (run statement >>= next) committed view := by
  have same : (statement.run 0 view).2 = view := run_reads reads
  apply does_run
  · intro reply answered
    rw [same]
    exact answers reply answered
  · intro e _
    rw [same]
    exact fails e

theorem does_commit {next : Unit → Work A} (publish : publishes committed view)
    (does : Does publishes now ends (next ()) view view) :
    Does publishes now ends (commit >>= next) committed view := by
  apply does_bind
  intro s there
  refine leads_perform ?_ ⟨view, view, there.commit, does⟩
  change publishes s.store.committed (s.store.view 0)
  rw [there.committed, there.view]
  exact publish

theorem does_utcNow {next : Nat → Work A} (does : Does publishes now ends (next now) committed view) :
    Does publishes now ends (utcNow >>= next) committed view := by
  apply does_bind
  intro s there
  refine leads_perform trivial ⟨committed, view, there, ?_⟩
  have clock : (handle 0 .utcNow s).1 = .ok now := congrArg Except.ok there.now
  rw [clock]
  exact does

theorem does_recordAudit {action targetType targetId result : String} {userId : Option Nat}
    {details : List (String × String)} {next : Unit → Work A}
    (does : Does publishes now ends (next ()) committed
      { view with auditLog := view.auditLog ++ [⟨userId, action, targetType, targetId, result, details⟩] }) :
    Does publishes now ends (recordAudit action targetType targetId result userId details false >>= next)
      committed view := by
  apply does_bind
  apply does_run
  · intro _ _
    exact does_pure does
  · intro e failed
    cases failed

theorem does_recordAudit_commit {action targetType targetId result : String} {userId : Option Nat}
    {details : List (String × String)} {next : Unit → Work A} {after : Rows}
    (added : after = { view with
      auditLog := view.auditLog ++ [⟨userId, action, targetType, targetId, result, details⟩] })
    (publish : publishes committed after) (does : Does publishes now ends (next ()) after after) :
    Does publishes now ends (recordAudit action targetType targetId result userId details true >>= next)
      committed view := by
  subst added
  apply does_bind
  apply does_run
  · intro _ _
    have commits : Does publishes now (Onward publishes now ends next) (commit >>= pure) committed _ :=
      does_commit publish (does_pure does)
    rw [bind_pure] at commits
    exact commits
  · intro e failed
    cases failed

def Closed (ends : Except Raised A → Rows → Prop) (result : Except Raised A) (committed _view : Rows) : Prop :=
  ends result committed

/-- After the session is closed the request would see what is committed. -/
theorem does_withSession {ends : Except Raised A → Rows → Prop} {work : Work A}
    (does : Does publishes now (Closed ends) work committed view) :
    Does publishes now (fun result committed view => view = committed ∧ ends result committed)
      (withSession work) committed view := by
  have closing : ∀ {B : Type} {committed view : Rows} (rest : Work B) {ends : Except Raised B → Rows → Rows → Prop},
      Does publishes now ends rest committed committed →
        Does publishes now ends (call .close >>= fun _ => rest) committed view := by
    intro B committed view rest ends does
    apply does_bind
    intro s there
    exact leads_perform trivial ⟨committed, committed, there.close, does⟩
  apply does_bind
  apply does_tryCatch
  apply does.mono
  intro result committed view ended
  cases result with
  | ok a =>
    apply closing
    exact does_pure ⟨rfl, ended⟩
  | error e =>
    apply closing
    apply does_throw
    exact ⟨rfl, ended⟩

/-- What every statement keeps, every request keeps. -/
theorem does_keeping {holds : Rows → Prop}
    (keeps : ∀ (statement : Statement) rows, holds rows → holds (statement.run 0 rows).2) (work : Work A)
    {committed view : Rows} (before : holds committed) (seen : holds view) :
    Does (fun _ _ => True) now (Closed fun _ => holds) work committed view := by
  intro s there
  induction work generalizing s committed view with
  | done a => exact ⟨committed, view, there, before⟩
  | raised e => exact ⟨committed, view, there, before⟩
  | call op k ih =>
    cases op with
    | query statement => exact ⟨trivial, ih _ before (keeps statement view seen) _ (there.query statement).2⟩
    | commit => exact ⟨trivial, ih _ seen seen _ there.commit⟩
    | close => exact ⟨trivial, ih _ before before _ there.close⟩
    | utcNow => exact ⟨trivial, ih _ before seen _ there⟩

def Idle (s : Shared) : Prop := At s s.store.committed s.store.committed s.now

theorem idle_opened (rows : Rows) (now : Nat) : Idle (opened rows now) := opened_at rows now

theorem Idle.tick {s : Shared} (idle : Idle s) (seconds : Nat) : Idle (tick seconds s) :=
  ⟨idle.free, rfl, idle.view, rfl⟩

theorem Idle.request {s : Shared} {ends : Except Raised A → Rows → Prop} {work : Work A} (idle : Idle s)
    (does : Does publishes s.now (Closed ends) work s.store.committed s.store.committed) :
    Idle ((withSession work).run (handle 0) s).2 ∧
      ends ((withSession work).run (handle 0) s).1 ((withSession work).run (handle 0) s).2.store.committed := by
  obtain ⟨committed, view, there, same, ended⟩ := (does_withSession does s idle).run
  subst same
  rw [there.committed]
  refine ⟨?_, ended⟩
  exact ⟨there.free, rfl, there.view.trans there.committed.symm, rfl⟩

/-! ## Who asks -/

structure SignedIn (runtime : Runtime) (now : Nat) (rows : Rows) (token : Option String) (user : Account) :
    Prop where
  token : token.bind (decodeAccessToken runtime now) = some user.id
  member : user ∈ rows.users
  enabled : user.disabled = false

instance (runtime : Runtime) (now : Nat) (rows : Rows) (token : Option String) (user : Account) :
    Decidable (SignedIn runtime now rows token user) :=
  decidable_of_iff (token.bind (decodeAccessToken runtime now) = some user.id ∧
    rows.users.any (· = user) = true ∧ user.disabled = false)
    ⟨fun all => ⟨all.1, by simpa using all.2.1, all.2.2⟩, fun all => ⟨all.token, by simpa using all.member, all.enabled⟩⟩

def Admits (runtime : Runtime) (now : Nat) (rows : Rows) (token : Option String) : Prop :=
  ∃ admin ∈ rows.users, SignedIn runtime now rows token admin ∧ admin.role = .admin

instance (runtime : Runtime) (now : Nat) (rows : Rows) (token : Option String) :
    Decidable (Admits runtime now rows token) := List.decidableBEx _ _

variable {runtime : Runtime} {token : Option String} {next : Account → Work A}

theorem does_identified {missing invalid : Raised}
    (passes : ∀ user, SignedIn runtime now view token user → Does publishes now ends (next user) committed view)
    (refuses : ∀ e, ends (.error e) committed view) :
    Does publishes now ends (identified runtime missing invalid token >>= next) committed view := by
  apply does_bind
  cases token with
  | none => exact does_throw (refuses _)
  | some token =>
    apply does_utcNow
    cases decoded : decodeAccessToken runtime now token with
    | none => exact does_throw (refuses _)
    | some userId =>
      apply does_select rfl
      · intro found answered
        cases found with
        | none => exact does_throw (refuses _)
        | some user =>
          dsimp only
          split_ifs with disabled
          · exact does_throw (refuses _)
          · obtain ⟨member, same⟩ := unique_some answered
            apply does_pure
            refine passes user ⟨?_, member, by simpa using disabled⟩
            exact decoded.trans (congrArg some (of_decide_eq_true same).symm)
      · exact refuses

theorem does_webCurrentUser
    (passes : ∀ user, SignedIn runtime now view token user → Does publishes now ends (next user) committed view)
    (refuses : ∀ e, ends (.error e) committed view) :
    Does publishes now ends (webCurrentUser runtime token >>= next) committed view := by
  rw [webCurrentUser_eq]
  exact does_identified passes refuses

theorem does_webRequireAdmin
    (passes : ∀ admin, SignedIn runtime now view token admin → admin.role = .admin →
      Does publishes now ends (next admin) committed view)
    (refuses : ∀ e, ends (.error e) committed view) :
    Does publishes now ends (webRequireAdmin runtime token >>= next) committed view := by
  apply does_bind
  apply does_webCurrentUser
  · intro user signedIn
    split_ifs with admin
    · exact does_throw (refuses _)
    · exact does_pure (passes user signedIn (not_not.mp admin))
  · exact refuses

theorem does_currentUser
    (passes : ∀ user, SignedIn runtime now view token user → Does publishes now ends (next user) committed view)
    (refuses : ∀ e, ends (.error e) committed view) :
    Does publishes now ends (currentUser runtime token >>= next) committed view := by
  rw [currentUser_eq]
  exact does_identified passes refuses

theorem does_requireAdmin
    (passes : ∀ admin, SignedIn runtime now view token admin → admin.role = .admin →
      Does publishes now ends (next admin) committed view)
    (refuses : ∀ e, ends (.error e) committed view) :
    Does publishes now ends (requireAdmin runtime token >>= next) committed view := by
  apply does_bind
  apply does_currentUser
  · intro user signedIn
    split_ifs with admin
    · exact does_throw (refuses _)
    · exact does_pure (passes user signedIn (not_not.mp admin))
  · exact refuses

theorem does_authenticated {found : Option Account} {password : String} {next : Option Account → Work A}
    (passes : ∀ user, found = some user → Does publishes now ends (next (some user)) committed view)
    (refuses : Does publishes now ends (next none) committed view)
    (raises : ∀ user, found = some user → user.disabled = false →
      runtime.verifyPassword password user.passwordHash = none → ends (.error .value) committed view) :
    Does publishes now ends (authenticated runtime found password >>= next) committed view := by
  apply does_bind
  cases found with
  | none => exact does_pure refuses
  | some user =>
    simp only [authenticated]
    by_cases disabled : user.disabled = true
    · rw [if_pos disabled]
      exact does_pure refuses
    rw [if_neg disabled]
    cases verified : runtime.verifyPassword password user.passwordHash with
    | none => exact does_throw (raises user rfl (Bool.eq_false_iff.mpr disabled) verified)
    | some right =>
      cases right with
      | true => exact does_pure (passes user rfl)
      | false => exact does_pure refuses

end

end Csl.Server.Session
