import Csl.Server.Session

/-! Rules for database sessions: what a call does, and what its reply tells. -/

set_option autoImplicit false

namespace Csl.Server.Session
open Csl.Shared Csl.Agent Transactions Proc

theorem unique_some {A : Type} {table : List A} {is : A → Bool} {row : A}
    (found : Rows.unique table is = .ok (some row)) : row ∈ table ∧ is row = true := by
  rw [Rows.unique] at found
  split at found
  · cases found
  next only =>
    cases found
    exact List.mem_filter.mp (only ▸ List.mem_singleton_self row)
  · cases found

theorem unique_none {A : Type} {table : List A} {is : A → Bool}
    (missing : Rows.unique table is = .ok none) : ∀ row ∈ table, is row = false := by
  rw [Rows.unique] at missing
  split at missing
  next nothing =>
    intro row member
    by_contra here
    have found := List.mem_filter.mpr ⟨member, eq_true_of_ne_false here⟩
    rw [nothing] at found
    cases found
  · cases missing
  · cases missing

/-- A row that is found is one that was asked for. -/
def Credible : (op : Op) → Except Raised (Reply op) → Prop
  | .query (.findUser userId), reply => ∀ user, reply = .ok (some user) → user.id = userId
  | .query (.findRefreshToken tokenHash), reply => ∀ row, reply = .ok (some row) → row.tokenHash = tokenHash
  | .query (.findMachine machineId), reply => ∀ machine, reply = .ok (some machine) → machine.id = machineId
  | .query (.findScript name), reply => ∀ script, reply = .ok (some script) → script.name = name
  | .query (.findJob jobUuid), reply => ∀ job, reply = .ok (some job) → job.jobUuid = jobUuid
  | _, _ => True

theorem credible_handle (connection : Nat) (op : Op) (s : Shared) :
    Credible op (handle connection op s).1 := by
  cases op with
  | commit | close | utcNow => trivial
  | query statement =>
    cases statement with
    | findUser | findRefreshToken | findMachine | findScript | findJob =>
      intro row found
      exact of_decide_eq_true (unique_some found).2
    | _ => trivial

theorem run_reads {connection : Nat} {rows : Rows} {statement : Statement}
    (reads : statement.writes = false) : (statement.run connection rows).2 = rows := by
  cases statement with
  | _ => first | rfl | cases reads

inductive Handled (connection : Nat) (store : Store Rows) : Op → Store Rows → Prop where
  | same {op : Op} : Handled connection store op store
  | written {statement : Statement} : store.locked connection = false →
      Handled connection store (.query statement)
        (store.write connection (statement.run connection (store.view connection)).2)
  | committed : Handled connection store .commit (store.commit connection)
  | closed : Handled connection store .close (store.rollback connection)

theorem handled (connection : Nat) (op : Op) (s : Shared) :
    Handled connection s.store op (handle connection op s).2.store := by
  cases op with
  | commit => exact .committed
  | close => exact .closed
  | utcNow => exact .same
  | query statement =>
    simp only [handle]
    split_ifs with writes locked
    · exact .same
    · exact .written (Bool.eq_false_iff.mpr locked)
    · exact .same

section
variable {Changes : Nat → Rows → Rows → Prop} {connection : Nat} {op : Op} {s : Shared}

theorem descends_handle
    (changes : ∀ statement, op = .query statement → Changes connection (s.store.view connection)
      (statement.run connection (s.store.view connection)).2)
    (descends : Descends Changes s.store) : Descends Changes (handle connection op s).2.store := by
  have handled := handled connection op s
  generalize (handle connection op s).2.store = after at handled
  cases handled with
  | same => exact descends
  | written => exact descends.write (changes _ rfl)
  | committed => exact descends.commit
  | closed => exact descends.rollback

end

theorem everywhere_handle {holds : Rows → Prop} {connection : Nat} {op : Op} {s : Shared}
    (runs : ∀ statement, op = .query statement →
      holds (statement.run connection (s.store.view connection)).2)
    (everywhere : Everywhere holds s.store) : Everywhere holds (handle connection op s).2.store := by
  have done := handled connection op s
  generalize (handle connection op s).2.store = after at done
  cases done with
  | same => exact everywhere
  | written => exact everywhere.write (runs _ rfl)
  | committed => exact everywhere.commit
  | closed => exact everywhere.rollback

section
variable {A : Type} {credible : (op : Op) → Except Raised (Reply op) → Prop} {allowed : Op → Prop}
  {good : A → Prop}

theorem keeps_call {op : Op} {good : Reply op → Prop} (may : allowed op)
    (fine : ∀ reply, credible op (.ok reply) → good reply) :
    (call op).Keeps credible allowed good := keeps_perform may fine

theorem keeps_then {op : Op} {next : Reply op → Work A} (may : allowed op)
    (rest : ∀ reply, credible op (.ok reply) → (next reply).Keeps credible allowed good) :
    (call op >>= next).Keeps credible allowed good :=
  keeps_bind (keeps_call may fun _ answered => answered) rest

theorem keeps_run {statement : Statement} {next : statement.Reply → Work A}
    (may : allowed (.query statement))
    (rest : ∀ reply, credible (.query statement) (.ok reply) → (next reply).Keeps credible allowed good) :
    (run statement >>= next).Keeps credible allowed good := keeps_then may rest

theorem keeps_withSession {work : Work A} (closes : allowed .close)
    (keeps : work.Keeps credible allowed good) : (withSession work).Keeps credible allowed good := by
  have closing : (call .close).Keeps credible allowed fun _ => True := keeps_call closes fun _ _ => trivial
  apply keeps_bind (keeps_tryCatch keeps _)
  · intro result fine
    exact keeps_bind closing fun _ _ => keeps_pure fine
  · intro e
    exact keeps_bind closing fun _ _ => keeps_throw

end

/-! ## One request among others -/

def Others (connection : Nat) (before after : Shared) : Prop :=
  (∃ other op, other ≠ connection ∧ after = (handle other op before).2) ∨
    ∃ seconds, after = tick seconds before

section
variable {Changes : Nat → Rows → Rows → Prop} {connection : Nat} {holds : Rows → Prop}

/-- Another request's call leaves the view of a connection as it is, or publishes what it has
made of the committed rows. -/
theorem view_handle {other : Nat} (apart : other ≠ connection) (op : Op) (s : Shared)
    (lasts : Lasts Changes holds) (descends : Descends Changes s.store)
    (held : holds (s.store.view connection)) : holds ((handle other op s).2.store.view connection) := by
  have done := handled other op s
  generalize (handle other op s).2.store = after at done
  cases done with
  | same => exact held
  | written free =>
    rw [Store.view_write_other apart _ free]
    exact held
  | committed =>
    rcases s.store.view_commit_other apart with same | ⟨before, published⟩
    · rw [same]
      exact held
    · rw [before] at held
      rw [published]
      exact lasts.view descends held
  | closed =>
    rw [Store.view_rollback_other apart]
    exact held

/-- A connection's own call keeps what lasts of its view, until the session is closed. -/
theorem view_handle_own {op : Op} {s : Shared} (remains : op ≠ .close)
    (changes : ∀ statement, Changes connection (s.store.view connection)
      (Statement.run connection (s.store.view connection) statement).2)
    (lasts : Lasts Changes holds) (held : holds (s.store.view connection)) :
    holds ((handle connection op s).2.store.view connection) := by
  have done := handled connection op s
  generalize (handle connection op s).2.store = after at done
  cases done with
  | same => exact held
  | written free =>
    rw [Store.view_own (Store.writer_write _)]
    exact lasts connection _ _ (changes _) held
  | committed =>
    rcases s.store.commit_cases connection with same | ⟨_, published⟩
    · rw [same]
      exact held
    · rw [published, Store.view_free rfl]
      exact held
  | closed => exact absurd rfl remains

theorem view_written {statement : Statement} {s : Shared} {reply : statement.Reply}
    (writes : statement.writes = true)
    (replied : (handle connection (.query statement) s).1 = .ok reply) :
    (handle connection (.query statement) s).2.store.view connection =
      (statement.run connection (s.store.view connection)).2 := by
  simp only [handle, if_pos writes] at replied ⊢
  by_cases locked : s.store.locked connection = true
  · rw [if_pos locked] at replied
    cases replied
  · rw [if_neg locked]
    exact Store.view_own (Store.writer_write _)

variable (Changes connection holds) in
/-- Copies descend from the committed rows, the view of the connection satisfies an assertion
that lasts, and so does the record. -/
structure Held (noted : Log Op Shared → Prop) (s : Shared × Log Op Shared) : Prop where
  descends : Descends Changes s.1.store
  view : holds (s.1.store.view connection)
  noted : noted s.2

def Outlasts (op : Op) (noted : Log Op Shared → Prop) : Prop :=
  ∀ log s, noted log → noted (log ++ [(op, s)])

theorem outlasts {op : Op} {noted : Log Op Shared → Prop} (lasting : Lasting noted) : Outlasts op noted :=
  fun log _ => lasting log _

section
variable {noted : Log Op Shared → Prop} (every : ∀ connection rows statement,
  Changes connection rows (Statement.run connection rows statement).2)
include every

theorem stable_held (lasts : Lasts Changes holds) :
    Stable (Aside fun _ => Others connection) fun _ => Held Changes connection holds noted := by
  rintro past ⟨s, log⟩ ⟨after, record⟩ held ⟨moved, same⟩
  obtain rfl : record = log := same
  change Others connection s after at moved
  rcases moved with ⟨other, op, apart, rfl⟩ | ⟨seconds, rfl⟩
  · constructor
    · exact descends_handle (fun statement _ => every _ _ statement) held.descends
    · exact view_handle apart op s lasts held.descends held.view
    · exact held.noted
  · exact ⟨held.descends, held.view, held.noted⟩

theorem Held.called {op : Op} {s : Shared × Log Op Shared} (remains : op ≠ .close)
    (lasts : Lasts Changes holds) (lasting : Outlasts op noted) (held : Held Changes connection holds noted s) :
    Held Changes connection holds (fun log => noted log ∧ (op, s.1) ∈ log)
      (recorded (handle connection) op s).2 := by
  constructor
  · exact descends_handle (fun statement _ => every _ _ statement) held.descends
  · exact view_handle_own remains (fun statement => every _ _ statement) lasts held.view
  · exact ⟨lasting _ _ held.noted, List.mem_append_right _ (List.mem_singleton_self _)⟩

end

theorem Held.mono {stronger : Rows → Prop} {noted wider : Log Op Shared → Prop}
    {s : Shared × Log Op Shared} (held : Held Changes connection stronger wider s)
    (views : ∀ rows, stronger rows → holds rows) (notes : ∀ log, wider log → noted log) :
    Held Changes connection holds noted s :=
  ⟨held.descends, views _ held.view, notes _ held.noted⟩

/-- What the record satisfies at every end, and what a returned value tells. -/
def Returns {A : Type} (always : Log Op Shared → Prop) (tells : A → Shared × Log Op Shared → Prop)
    (result : Except Raised A) (s : Shared × Log Op Shared) : Prop :=
  always s.2 ∧ ∀ a, result = .ok a → tells a s

/-- Whatever the others do, a request's work ends with this postcondition. -/
def Ensures {A : Type} (connection : Nat) (work : Work A)
    (post : Except Raised A → Shared × Log Op Shared → Prop) (past : List Op)
    (s : Shared × Log Op Shared) : Prop :=
  work.Along (recorded (handle connection)) (Aside fun _ => Others connection) (fun result _ => post result)
    past s

section
variable {A B : Type} {always : Log Op Shared → Prop} {tells : A → Shared × Log Op Shared → Prop}
  {past : List Op} {s : Shared × Log Op Shared}

theorem ensures_throw {e : Raised} (fine : always s.2) :
    Ensures connection (throw e : Work A) (Returns always tells) past s := by
  refine along_throw ?_ ⟨fine, nofun⟩
  intro past s next before moved
  exact ⟨moved.2 ▸ before.1, nofun⟩

theorem ensures_pure {a : A} (stable : Stable (Aside fun _ => Others connection) fun _ => tells a)
    (fine : always s.2) (told : tells a s) :
    Ensures connection (pure a : Work A) (Returns always tells) past s := by
  have both : Stable (Aside fun _ => Others connection) fun _ s => always s.2 ∧ tells a s :=
    (stable_of always).and stable
  intro final moved
  have ends := both.after ⟨fine, told⟩ moved
  constructor
  · exact ends.1
  · intro b returned
    cases returned
    exact ends.2

theorem ensures_call {op : Op} {next : Reply op → Work A} (pre : Shared × Log Op Shared → Prop)
    (stable : Stable (Aside fun _ => Others connection) fun _ => pre) (before : pre s)
    (fine : ∀ s, pre s → always (s.2 ++ [(op, s.1)]))
    (rest : ∀ s reply all, pre s → (handle connection op s.1).1 = .ok reply →
      Ensures connection (next reply) (Returns always tells) all (recorded (handle connection) op s).2) :
    Ensures connection (call op >>= next) (Returns always tells) past s := by
  refine along_perform (fun _ => pre) stable before ?_
  intro s' held
  have same : recorded (handle connection) op s' =
      ((handle connection op s'.1).1, (recorded (handle connection) op s').2) := rfl
  rw [same]
  cases replied : (handle connection op s'.1).1 with
  | error e => exact ensures_throw (fine s' held)
  | ok reply => exact rest s' reply _ held replied

theorem ensures_held {op : Op} {next : Reply op → Work A} {noted : Log Op Shared → Prop}
    (every : ∀ connection rows statement, Changes connection rows (Statement.run connection rows statement).2)
    (lasts : Lasts Changes holds) (lasting : Outlasts op noted) (remains : op ≠ .close)
    (fine : ∀ s : Shared × Log Op Shared, noted s.2 → always (s.2 ++ [(op, s.1)]))
    (held : Held Changes connection holds noted s)
    (rest : ∀ s reply all, Held Changes connection holds noted s →
      (handle connection op s.1).1 = .ok reply →
      Held Changes connection holds (fun log => noted log ∧ (op, s.1) ∈ log)
        (recorded (handle connection) op s).2 →
      Ensures connection (next reply) (Returns always tells) all (recorded (handle connection) op s).2) :
    Ensures connection (call op >>= next) (Returns always tells) past s := by
  refine ensures_call (Held Changes connection holds noted) (stable_held every lasts) held ?_ ?_
  · intro s held
    exact fine s held.noted
  · intro s reply all held replied
    exact rest s reply all held replied (held.called every remains lasts lasting)

theorem ensures_last {op : Op} {noted : Log Op Shared → Prop}
    (every : ∀ connection rows statement, Changes connection rows (Statement.run connection rows statement).2)
    (lasts : Lasts Changes holds) (lasting : Outlasts op noted) (remains : op ≠ .close)
    (fine : ∀ log, noted log → always log) (held : Held Changes connection holds noted s) :
    Ensures connection (call op)
      (Returns always fun _ => Held Changes connection holds noted) past s := by
  rw [← bind_pure (call op)]
  refine ensures_held every lasts lasting remains (fun s held => fine _ (lasting _ _ held)) held ?_
  intro s reply all _ _ after
  refine ensures_pure (fun _ => stable_held every lasts _) (fine _ after.noted.1) ?_
  exact ⟨after.descends, after.view, after.noted.1⟩

theorem ensures_bind {next : A → Work B} {work : Work A} {more : B → Shared × Log Op Shared → Prop}
    (first : Ensures connection work (Returns always tells) past s)
    (rest : ∀ a s all, always s.2 → tells a s →
      Ensures connection (next a) (Returns always more) all s) :
    Ensures connection (work >>= next) (Returns always more) past s := by
  refine along_seq _ first ?_ ?_
  · intro e all final held
    exact ⟨held.1, nofun⟩
  · intro a all final held
    exact rest a final all held.1 (held.2 a rfl)

theorem ensures_weaken {work : Work A} {weaker : A → Shared × Log Op Shared → Prop}
    (ensures : Ensures connection work (Returns always tells) past s)
    (follows : ∀ a s, tells a s → weaker a s) : Ensures connection work (Returns always weaker) past s := by
  refine Along.mono ensures ?_
  intro result all final held
  exact ⟨held.1, fun a returned => follows a final (held.2 a returned)⟩

theorem ensures_withSession {work : Work A} {last : A → Shared × Log Op Shared → Prop}
    (stable : ∀ a, Stable (Aside fun _ => Others connection) fun _ => tells a)
    (stableLast : ∀ a, Stable (Aside fun _ => Others connection) fun _ => last a)
    (lasting : ∀ log state, always log → always (log ++ [(.close, state)]))
    (closes : ∀ a s, tells a s → last a (recorded (handle connection) .close s).2)
    (works : Ensures connection work (Returns always tells) past s) :
    Ensures connection (withSession work) (Returns always last) past s := by
  have noted : Stable (Aside fun _ => Others connection) fun _ s => always s.2 := stable_of always
  have caught : Ensures connection (MonadExcept.tryCatch work fun e => do call .close; throw e)
      (Returns always tells) past s := by
    refine along_tryCatch _ works ?_ ?_
    · intro a all final held
      exact held
    · intro e all final held
      refine ensures_call (fun s => always s.2) noted held.1 (fun s held => lasting _ _ held) ?_
      intro s _ _ held _
      exact ensures_throw (lasting _ _ held)
  refine ensures_bind caught ?_
  intro a s all fine told
  refine ensures_call (fun s => always s.2 ∧ tells a s) (noted.and (stable a)) ⟨fine, told⟩
    (fun s held => lasting _ _ held.1) ?_
  intro s _ all held _
  exact ensures_pure (stableLast a) (lasting _ _ held.1) (closes a s held.2)

end

/-! ## What is committed -/

def HasCommitted {A : Type} (pool : Pool Op Reply Raised A Shared) (number : Nat) : Prop :=
  ∃ activity, pool.activities number = some activity ∧ ∃ s, (Op.commit, s) ∈ activity.log

section
variable {A : Type} (Changes : Nat → Rows → Rows → Prop)

structure Published (pool : Pool Op Reply Raised A Shared) : Prop where
  descends : Descends Changes pool.shared.store
  remains : ∀ number activity s, pool.activities number = some activity → (Op.commit, s) ∈ activity.log →
    ∀ holds, Lasts Changes holds → holds (s.store.view number) → holds pool.shared.store.committed

variable {Changes} {work : Nat → Work A} {pool : Pool Op Reply Raised A Shared} {turn : Turn Nat}

theorem hasCommitted_step {number : Nat} (before : HasCommitted pool number) :
    HasCommitted (serve work pool turn) number := by
  obtain ⟨activity, found, s, member⟩ := before
  have moved := Pool.step_moved work handle tick pool turn
  change HasCommitted (Pool.step work handle tick pool turn) number
  generalize Pool.step work handle tick pool turn = after at moved
  cases moved with
  | idle | outside => exact ⟨activity, found, s, member⟩
  | @started other free =>
    have apart : number ≠ other := fun same => by simp [same ▸ found] at free
    exact ⟨activity, by rw [Pool.activities_put, if_neg apart]; exact found, s, member⟩
  | @served other op k log called =>
    by_cases same : number = other
    · subst same
      rw [called] at found
      cases found
      exact ⟨_, by rw [Pool.activities_put, if_pos rfl], s, List.mem_append_left _ member⟩
    · exact ⟨activity, by rw [Pool.activities_put, if_neg same]; exact found, s, member⟩

theorem committed_handle {connection : Nat} {op : Op} (other : op ≠ .commit) (s : Shared) :
    (handle connection op s).2.store.committed = s.store.committed := by
  cases op with
  | commit => exact absurd rfl other
  | close => exact Store.committed_rollback
  | utcNow => rfl
  | query statement =>
    simp only [handle]
    split_ifs <;> rfl

theorem lasts_committed {holds : Rows → Prop} (lasts : Lasts Changes holds) {s : Shared}
    (descends : Descends Changes s.store) (held : holds s.store.committed) (connection : Nat) (op : Op) :
    holds (handle connection op s).2.store.committed := by
  by_cases commits : op = .commit
  · subst commits
    exact lasts.commit descends held
  · rw [committed_handle commits]
    exact held

variable (every : ∀ connection rows statement, Changes connection rows (Statement.run connection rows statement).2)
include every

theorem published_step (published : Published Changes pool) : Published Changes (serve work pool turn) := by
  have moved := Pool.step_moved work handle tick pool turn
  change Published Changes (Pool.step work handle tick pool turn)
  generalize Pool.step work handle tick pool turn = after at moved
  cases moved with
  | idle => exact published
  | outside => exact ⟨published.descends, published.remains⟩
  | @started started free =>
    refine ⟨published.descends, ?_⟩
    intro number activity s found member
    rw [Pool.activities_put] at found
    split_ifs at found
    · cases found
      cases member
    · exact published.remains number activity s found member
  | @served serving op k log called =>
    refine ⟨descends_handle (fun statement _ => every _ _ statement) published.descends, ?_⟩
    intro number activity s found member holds lasts held
    -- what lasted of the earlier commits survives the call
    have earlier : ∀ activity, pool.activities number = some activity → (Op.commit, s) ∈ activity.log →
        holds (handle serving op pool.shared).2.store.committed := by
      intro activity found member
      exact lasts_committed lasts published.descends
        (published.remains number activity s found member holds lasts held) serving op
    rw [Pool.activities_put] at found
    split_ifs at found with same
    · cases found
      subst same
      rcases List.mem_append.mp member with before | last
      · exact earlier _ called before
      · -- What it commits is what it sees.
        cases List.mem_singleton.mp last
        change holds (pool.shared.store.commit number).committed
        rw [Store.committed_commit]
        exact held
    · exact earlier activity found member

theorem lasts_run {holds : Rows → Prop} (lasts : Lasts Changes holds) (work : Nat → Work A)
    (descends : Descends Changes pool.shared.store) (held : holds pool.shared.store.committed)
    (turns : List (Turn Nat)) : holds (Runs.run (serve work) pool turns).shared.store.committed := by
  suffices both : Descends Changes (Runs.run (serve work) pool turns).shared.store ∧
      holds (Runs.run (serve work) pool turns).shared.store.committed from both.2
  apply Runs.invariant_run_of_forall
    (fun pool : Pool Op Reply Raised A Shared => Descends Changes pool.shared.store ∧ holds pool.shared.store.committed)
  · rintro pool turn ⟨descends, held⟩
    have moved := Pool.step_moved work handle tick pool turn
    change Descends Changes (Pool.step work handle tick pool turn).shared.store ∧
      holds (Pool.step work handle tick pool turn).shared.store.committed
    generalize Pool.step work handle tick pool turn = after at moved
    cases moved with
    | idle | started | outside => exact ⟨descends, held⟩
    | @served serving op k log called =>
      constructor
      · exact descends_handle (fun statement _ => every _ _ statement) descends
      · exact lasts_committed lasts descends held serving op
  · exact ⟨descends, held⟩

theorem published_run (work : Nat → Work A) (rows : Rows) (now : Nat) (turns : List (Turn Nat)) :
    Published Changes (Runs.run (serve work) (Pool.empty (opened rows now)) turns) := by
  apply Runs.invariant_run_of_forall
  · exact fun pool turn => published_step every
  · exact ⟨descends_of_free rfl, nofun⟩

end

end

end Csl.Server.Session
