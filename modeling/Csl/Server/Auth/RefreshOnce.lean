import Csl.Server.Auth.Installation
import Csl.Server.Session.Rules
import Csl.Server.Web.Auth

/-! That a refresh token is redeemed at most once.

A refresh validates the presented token, selects it again later and writes it as revoked if it is
not; whatever it finds then, it goes on to issue a new token. In between another request may have
revoked it.
-/

set_option autoImplicit false

namespace Csl.Server.Session.RefreshOnce
open Csl.Shared Csl.Agent Transactions Proc Runs

inductive TokenRequest where
  | login (body : Api.LoginRequest) (jti : String)
  | webLogin (username password jti : String)
  | refresh (refreshToken : Option String) (newJti : String)
  | logout (refreshToken : Option String)
  | webLogout (refreshToken : Option String)

variable (runtime : Runtime)

def TokenRequest.work : TokenRequest → Work Answer
  | .login body jti => withSession (Api.login runtime body jti)
  | .webLogin username password jti => withSession (Web.loginSubmit runtime username password jti)
  | .refresh refreshToken newJti => withSession (Api.refresh runtime refreshToken newJti)
  | .logout refreshToken => withSession (Api.logout runtime refreshToken)
  | .webLogout refreshToken => withSession (Web.logout runtime refreshToken)

/-- What a token claims, whether it has expired or not. -/
def claimed (refreshToken : Option String) : Option RefreshTokenData :=
  refreshToken.bind fun token => (runtime.refreshClaims token).map (·.1)

def TokenRequest.refreshes : TokenRequest → Option RefreshTokenData
  | .refresh refreshToken _ => claimed runtime refreshToken
  | _ => none

def TokenRequest.logsOut : TokenRequest → Option RefreshTokenData
  | .logout refreshToken | .webLogout refreshToken => claimed runtime refreshToken
  | _ => none

/-! ## The rows of a token -/

def issued (rows : Rows) (tokenHash : String) : Option RefreshToken :=
  rows.refreshTokens.find? (·.tokenHash = tokenHash)

def revoker (rows : Rows) (tokenHash : String) : Option Revoker := (issued rows tokenHash).bind (·.revokedBy)

structure Evolves (connection : Nat) (row later : RefreshToken) : Prop where
  id : later.id = row.id
  tokenHash : later.tokenHash = row.tokenHash
  lasts : ∀ who, row.revokedBy = some who → later.revokedBy = some who
  fresh : ∀ who, later.revokedBy = some who → row.revokedBy = some who ∨ who = .request connection

theorem Evolves.refl (connection : Nat) (row : RefreshToken) : Evolves connection row row :=
  ⟨rfl, rfl, fun _ same => same, fun _ => .inl⟩

theorem evolves_revoked (connection : Nat) (row : RefreshToken) :
    Evolves connection row (Rows.revokedToken connection row) := by
  refine ⟨rfl, rfl, ?_, ?_⟩
  · intro who revoked
    simp [Rows.revokedToken, revoked]
  · intro who revoked
    cases before : row.revokedBy with
    | none =>
      simp only [Rows.revokedToken, before, Option.getD_none, Option.some.injEq] at revoked
      exact .inr revoked.symm
    | some first =>
      simp only [Rows.revokedToken, before, Option.getD_some] at revoked
      exact .inl revoked

/-- What a statement does to refresh_tokens: rows evolve, and unrevoked ones are added. -/
def Changes (connection : Nat) (before after : Rows) : Prop :=
  ∃ (change : RefreshToken → RefreshToken) (added : List RefreshToken),
    after.refreshTokens = before.refreshTokens.map change ++ added ∧
      (∀ row, Evolves connection row (change row)) ∧ ∀ row ∈ added, row.revokedBy = none

theorem changes_of_same {connection : Nat} {before after : Rows}
    (same : after.refreshTokens = before.refreshTokens) : Changes connection before after :=
  ⟨fun row => row, [], by simp [same], Evolves.refl connection, nofun⟩

theorem changes_run (connection : Nat) (rows : Rows) (statement : Statement) :
    Changes connection rows (statement.run connection rows).2 := by
  cases statement with
  | insertRefreshToken userId tokenHash expiresAt =>
    refine ⟨fun row => row, _, by rw [List.map_id']; rfl, Evolves.refl connection, ?_⟩
    intro row added
    cases List.mem_singleton.mp added
    rfl
  | revokeRefreshToken id =>
    simp only [Statement.run, Rows.present]
    split_ifs
    · refine ⟨fun row => if row.id = id then Rows.revokedToken connection row else row, [],
        by simp, ?_, nofun⟩
      intro row
      dsimp only
      split_ifs
      · exact evolves_revoked connection row
      · exact Evolves.refl connection row
    · exact changes_of_same rfl
  | insertMachine name platform =>
    simp only [Statement.run, Rows.insertMachine]
    split_ifs <;> exact changes_of_same rfl
  | insertScript fields =>
    simp only [Statement.run, Rows.insertScript]
    split_ifs <;> exact changes_of_same rfl
  | insertJob fields =>
    simp only [Statement.run, Rows.insertJob]
    split_ifs <;> exact changes_of_same rfl
  | insertBookmark | insertTargetState =>
    simp only [Statement.run]
    split_ifs <;> exact changes_of_same rfl
  | updateUser | updateScript | updateTargetState | updateJob =>
    simp only [Statement.run, Rows.present]
    split_ifs <;> exact changes_of_same rfl
  | _ => exact changes_of_same rfl

section
variable {connection : Nat} {before after : Rows}

theorem Changes.issued (changes : Changes connection before after) (tokenHash : String) :
    issued after tokenHash = none ∧ issued before tokenHash = none ∨
      (∃ row later, issued before tokenHash = some row ∧ issued after tokenHash = some later ∧
        Evolves connection row later) ∨
      ∃ later, issued before tokenHash = none ∧ issued after tokenHash = some later ∧ later.revokedBy = none := by
  obtain ⟨change, added, tokens, evolves, unrevoked⟩ := changes
  have same : ((fun row : RefreshToken => decide (row.tokenHash = tokenHash)) ∘ change) =
      fun row => decide (row.tokenHash = tokenHash) := by
    funext row
    simp [(evolves row).tokenHash]
  have split : RefreshOnce.issued after tokenHash =
      ((RefreshOnce.issued before tokenHash).map change).or (added.find? (·.tokenHash = tokenHash)) := by
    rw [RefreshOnce.issued, tokens, List.find?_append, List.find?_map, same]
    rfl
  rw [split]
  cases RefreshOnce.issued before tokenHash with
  | some row => exact .inr (.inl ⟨row, change row, rfl, rfl, evolves row⟩)
  | none =>
    rw [Option.map_none, Option.none_or]
    cases new : added.find? (·.tokenHash = tokenHash) with
    | none => exact .inl ⟨rfl, rfl⟩
    | some later =>
      exact .inr (.inr ⟨later, rfl, rfl, unrevoked later (List.mem_of_find?_eq_some new)⟩)

end

theorem lasts_issued (tokenHash : String) (id : Nat) :
    Lasts Changes fun rows => ∃ row, issued rows tokenHash = some row ∧ row.id = id := by
  rintro connection before after changes ⟨row, found, same⟩
  rcases changes.issued tokenHash with ⟨_, none⟩ | ⟨first, later, held, next, evolves⟩ | ⟨_, none, _⟩
  · rw [none] at found
    cases found
  · rw [held] at found
    cases found
    exact ⟨later, next, evolves.id.trans same⟩
  · rw [none] at found
    cases found

theorem lasts_revoker (tokenHash : String) (who : Revoker) :
    Lasts Changes fun rows => revoker rows tokenHash = some who := by
  intro connection before after changes revoked
  rw [revoker] at revoked ⊢
  rcases changes.issued tokenHash with ⟨_, none⟩ | ⟨first, later, held, next, evolves⟩ | ⟨_, none, _⟩
  · rw [none] at revoked
    cases revoked
  · rw [held] at revoked
    rw [next]
    exact evolves.lasts who revoked
  · rw [none] at revoked
    cases revoked

/-- A token that is revoked after a statement was so before, or its connection revoked it. -/
theorem revoker_changes {connection : Nat} {before after : Rows} (changes : Changes connection before after)
    {tokenHash : String} {who : Revoker} (revoked : revoker after tokenHash = some who) :
    revoker before tokenHash = some who ∨ who = .request connection := by
  rw [revoker] at revoked ⊢
  rcases changes.issued tokenHash with ⟨none, _⟩ | ⟨first, later, held, next, evolves⟩ | ⟨later, _, next, fresh⟩
  · rw [none] at revoked
    cases revoked
  · rw [next] at revoked
    rw [held]
    exact evolves.fresh who revoked
  · rw [next, Option.bind_some, fresh] at revoked
    cases revoked

/-- A revoking statement that finds the row unrevoked revokes the token for its connection. -/
theorem revoker_revoke {connection : Nat} {rows : Rows} {tokenHash : String} {row : RefreshToken}
    (found : issued rows tokenHash = some row) (unrevoked : row.revokedBy = none) :
    revoker (Statement.run connection rows (.revokeRefreshToken row.id)).2 tokenHash =
      some (.request connection) := by
  have member := List.mem_of_find?_eq_some found
  have present : rows.refreshTokens.any (·.id = row.id) = true := by
    rw [List.any_eq_true]
    exact ⟨row, member, by simp⟩
  have same : ((fun row : RefreshToken => decide (row.tokenHash = tokenHash)) ∘ fun other : RefreshToken =>
      if other.id = row.id then Rows.revokedToken connection other else other) =
      fun row => decide (row.tokenHash = tokenHash) := by
    funext other
    simp only [Function.comp_apply]
    split_ifs <;> rfl
  rw [issued] at found
  simp only [revoker, issued, Statement.run, Rows.present, if_pos present]
  rw [List.find?_map, same, found]
  simp [Rows.revokedToken, unrevoked]

theorem issued_of_unique {rows : Rows} {tokenHash : String} {row : RefreshToken}
    (found : Rows.unique rows.refreshTokens (·.tokenHash = tokenHash) = .ok (some row)) :
    issued rows tokenHash = some row := by
  rw [Rows.unique] at found
  split at found
  · cases found
  next only =>
    cases found
    rw [issued, ← List.head?_filter, only]
    rfl
  · cases found

theorem issued_of_none {rows : Rows} {tokenHash : String}
    (none : Rows.unique rows.refreshTokens (·.tokenHash = tokenHash) = .ok none) :
    issued rows tokenHash = Option.none := by
  rw [Rows.unique] at none
  split at none
  next empty => rw [issued, ← List.head?_filter, empty, List.head?_nil]
  · cases none
  · cases none

theorem tokenHash_issued {rows : Rows} {tokenHash : String} {row : RefreshToken}
    (found : issued rows tokenHash = some row) : row.tokenHash = tokenHash := by
  have same := List.find?_some found
  exact of_decide_eq_true same

/-! ## A refresh -/

section
variable {runtime} {number : Nat} {requests : Nat → TokenRequest}

def revokes : Op → Option Nat
  | .query (.revokeRefreshToken id) => some id
  | _ => none

def selects : Op → Option String
  | .query (.findRefreshToken tokenHash) => some tokenHash
  | _ => none

def Selected (tokenHash : String) (log : Log Op Shared) : Prop :=
  ∃ entry ∈ log, selects entry.1 = some tokenHash

instance (tokenHash : String) (log : Log Op Shared) : Decidable (Selected tokenHash log) :=
  List.decidableBEx _ _

/-- The call selects the row for the second time, or revokes it. -/
def Rotates (log : Log Op Shared) (op : Op) (row : RefreshToken) : Prop :=
  selects op = some row.tokenHash ∧ Selected row.tokenHash log ∨ revokes op = some row.id

instance (log : Log Op Shared) (op : Op) (row : RefreshToken) : Decidable (Rotates log op row) :=
  inferInstanceAs (Decidable (_ ∨ _))

/-- A refresh that rotates a token finds its row unrevoked. -/
def Unspent (runtime : Runtime) (requests : Nat → TokenRequest) (number : Nat) (log : Log Op Shared) (op : Op)
    (s : Shared) : Prop :=
  ((requests number).refreshes runtime).isSome →
    ∀ row ∈ (s.store.view number).refreshTokens, Rotates log op row → row.revoked = false

instance (runtime : Runtime) (requests : Nat → TokenRequest) (number : Nat) (log : Log Op Shared) (op : Op)
    (s : Shared) : Decidable (Unspent runtime requests number log op s) :=
  inferInstanceAs (Decidable (_ → ∀ row ∈ (s.store.view number).refreshTokens, _))

def Honest (runtime : Runtime) (requests : Nat → TokenRequest) (number : Nat) (log : Log Op Shared) : Prop :=
  Met (Unspent runtime requests number) log

def Looked (number : Nat) (tokenHash : String) (row : RefreshToken) (log : Log Op Shared) : Prop :=
  row.revoked = false ∧
    (∃ s, (Op.query (.findRefreshToken tokenHash), s) ∈ log ∧
      issued (s.store.view number) tokenHash = some row) ∧
    ∃ s, (Op.utcNow, s) ∈ log ∧ s.now ≤ row.expiresAt

def Enabled (number userId : Nat) (log : Log Op Shared) : Prop :=
  ∃ s, ∃ user ∈ (s.store.view number).users,
    (Op.query (.findUser userId), s) ∈ log ∧ user.id = userId ∧ user.disabled = false

def Presented (runtime : Runtime) (request : TokenRequest) (data : RefreshTokenData) (log : Log Op Shared) : Prop :=
  ∃ token newJti s, request = .refresh (some token) newJti ∧ (Op.utcNow, s) ∈ log ∧
    decodeRefreshToken runtime s.now token = some data

/-- The presented token was valid and its user enabled when the request looked. -/
def Admitted (runtime : Runtime) (requests : Nat → TokenRequest) (number : Nat) (data : RefreshTokenData)
    (log : Log Op Shared) : Prop :=
  Presented runtime (requests number) data log ∧ (∃ row, Looked number (runtime.hashJti data.jti) row log) ∧
    Enabled number data.userId log

/-- The request committed rows in which it is the one that revoked the token. -/
def Redeemed (number : Nat) (tokenHash : String) (log : Log Op Shared) : Prop :=
  ∃ s, (Op.commit, s) ∈ log ∧ revoker (s.store.view number) tokenHash = some (.request number)

theorem lasting_looked (tokenHash : String) (row : RefreshToken) : Lasting (Looked number tokenHash row) := by
  rintro log entry ⟨unrevoked, ⟨s, called, found⟩, ⟨s', asked, valid⟩⟩
  exact ⟨unrevoked, ⟨s, List.mem_append_left _ called, found⟩, ⟨s', List.mem_append_left _ asked, valid⟩⟩

theorem lasting_enabled (userId : Nat) : Lasting (Enabled number userId) := by
  rintro log entry ⟨s, user, member, called, rest⟩
  exact ⟨s, user, member, List.mem_append_left _ called, rest⟩

theorem lasting_presented (request : TokenRequest) (data : RefreshTokenData) :
    Lasting (Presented runtime request data) := by
  rintro log entry ⟨token, newJti, s, same, called, decoded⟩
  exact ⟨token, newJti, s, same, List.mem_append_left _ called, decoded⟩

theorem lasting_dishonest : Lasting fun log => ¬ Honest runtime requests number log := by
  intro log entry dishonest honest
  exact dishonest (met_snoc.mp honest).1

theorem Lasting.and {first second : Log Op Shared → Prop} (left : Lasting first) (right : Lasting second) :
    Lasting fun log => first log ∧ second log :=
  fun log entry held => ⟨left log entry held.1, right log entry held.2⟩

def Anything : Log Op Shared → Prop := fun _ => True

theorem ensures_storeRefreshToken {holds : Rows → Prop} {noted : Log Op Shared → Prop} {userId : Nat}
    {jti : String} {past : List Op} {s : Shared × Log Op Shared} (lasts : Lasts Changes holds)
    (lasting : Lasting noted) (held : Held Changes number holds noted s) :
    Ensures number (Api.storeRefreshToken runtime userId jti)
      (Returns Anything fun _ => Held Changes number holds noted) past s := by
  have remains : Op.utcNow ≠ .close := by simp
  refine ensures_held changes_run lasts (outlasts lasting) remains (fun _ _ => trivial) held ?_
  intro s now all _ _ after
  have kept : Held Changes number holds noted (recorded (handle number) .utcNow s).2 :=
    after.mono (fun _ held => held) fun _ both => both.1
  exact ensures_last changes_run lasts (outlasts lasting) (by simp) (fun _ _ => trivial) kept

theorem ensures_issue {holds : Rows → Prop} {noted : Log Op Shared → Prop} {userId : Nat} {newJti : String}
    {answer : Answer} {past : List Op} {s : Shared × Log Op Shared} (lasts : Lasts Changes holds)
    (lasting : Lasting noted) (held : Held Changes number holds noted s) :
    Ensures number (do
        Api.storeRefreshToken runtime userId newJti
        commit
        return answer : Work Answer)
      (Returns Anything fun _ s => noted s.2 ∧ ∃ state, (Op.commit, state) ∈ s.2 ∧
        holds (state.store.view number)) past s := by
  refine ensures_bind (ensures_storeRefreshToken lasts lasting held) ?_
  intro _ s all _ held
  have remains : Op.commit ≠ .close := by simp
  refine ensures_held changes_run lasts (outlasts lasting) remains (fun _ _ => trivial) held ?_
  intro before _ _ held _ after
  refine ensures_pure ?_ trivial ?_
  · exact stable_of fun log => noted log ∧ ∃ state, (Op.commit, state) ∈ log ∧ holds (state.store.view number)
  · exact ⟨after.noted.1, before.1, after.noted.2, held.view⟩

def Known (tokenHash : String) (id : Nat) (rows : Rows) : Prop :=
  ∃ row, issued rows tokenHash = some row ∧ row.id = id

def Stored (tokenHash : String) (rows : Rows) : Prop := ∃ id, Known tokenHash id rows

theorem lasts_stored (tokenHash : String) : Lasts Changes (Stored tokenHash) := by
  rintro connection before after changes ⟨id, known⟩
  exact ⟨id, lasts_issued tokenHash id connection before after changes known⟩

def Whatever : Rows → Prop := fun _ => True

theorem lasts_whatever : Lasts Changes Whatever := fun _ _ _ _ held => held

theorem lasting_anything : Lasting Anything := fun _ _ held => held

theorem ensures_validate {jti : String} {noted : Log Op Shared → Prop} {past : List Op}
    {s : Shared × Log Op Shared} (lasting : Lasting noted) (held : Held Changes number Whatever noted s) :
    Ensures number (Api.validateRefreshJti runtime jti)
      (Returns Anything fun _ => Held Changes number (Stored (runtime.hashJti jti))
        fun log => noted log ∧ ∃ row, Looked number (runtime.hashJti jti) row log) past s := by
  have remains : Op.query (.findRefreshToken (runtime.hashJti jti)) ≠ .close := by simp
  refine ensures_held changes_run lasts_whatever (outlasts lasting) remains (fun _ _ => trivial) held ?_
  intro s reply all held replied after
  cases reply with
  | none => exact ensures_throw trivial
  | some row =>
    have found : issued (s.1.store.view number) (runtime.hashJti jti) = some row := issued_of_unique replied
    dsimp only
    by_cases revoked : row.revoked
    · rw [if_pos revoked]
      exact ensures_throw trivial
    rw [if_neg revoked]
    -- from here on the row is stored, whatever the others do
    have selected : Held Changes number (Stored (runtime.hashJti jti))
        (fun log => noted log ∧ ∃ s, (Op.query (.findRefreshToken (runtime.hashJti jti)), s) ∈ log ∧
          issued (s.store.view number) (runtime.hashJti jti) = some row)
        (recorded (handle number) (.query (.findRefreshToken (runtime.hashJti jti))) s).2 :=
      ⟨after.descends, ⟨_, row, found, rfl⟩, after.noted.1, s.1, after.noted.2, found⟩
    have asks : Op.utcNow ≠ .close := by simp
    refine ensures_held changes_run (lasts_stored _) ?_ asks (fun _ _ => trivial) selected ?_
    · rintro log _ ⟨earlier, state, called, found⟩
      exact ⟨lasting _ _ earlier, state, List.mem_append_left _ called, found⟩
    intro s now all held asked after
    have clock : s.1.now = now := Except.ok.inj asked
    by_cases expired : row.expiresAt < now
    · rw [if_pos expired]
      exact ensures_throw trivial
    · rw [if_neg expired]
      refine ensures_pure (stable_held changes_run (lasts_stored _)) trivial ?_
      have valid : s.1.now ≤ row.expiresAt := by
        rw [clock]
        exact not_lt.mp expired
      exact ⟨after.descends, after.view, after.noted.1.1, row, by simpa using revoked, after.noted.1.2, s.1,
        after.noted.2, valid⟩

/-- After revoking: the connection is the one that revoked the token, or it found the row revoked
at its second look or at its write. -/
def Revokes (runtime : Runtime) (requests : Nat → TokenRequest) (number : Nat) (tokenHash : String)
    (noted : Log Op Shared → Prop) (s : Shared × Log Op Shared) : Prop :=
  Held Changes number (fun rows => revoker rows tokenHash = some (.request number)) noted s ∨
    Held Changes number Whatever (fun log => noted log ∧ ¬ Honest runtime requests number log) s

theorem stable_revokes {tokenHash : String} {noted : Log Op Shared → Prop} :
    Stable (Aside fun _ => Others number) fun _ => Revokes runtime requests number tokenHash noted := by
  intro past s next before moved
  rcases before with held | held
  · exact .inl (stable_held changes_run (lasts_revoker _ _) past s next held moved)
  · exact .inr (stable_held changes_run lasts_whatever past s next held moved)

theorem ensures_revoke {jti : String} {noted : Log Op Shared → Prop} {past : List Op}
    {s : Shared × Log Op Shared} (refreshes : ((requests number).refreshes runtime).isSome)
    (lasting : Lasting noted) (again : ∀ log, noted log → Selected (runtime.hashJti jti) log)
    (held : Held Changes number (Stored (runtime.hashJti jti)) noted s) :
    Ensures number (Api.revokeJti runtime jti)
      (Returns Anything fun _ => Revokes runtime requests number (runtime.hashJti jti) noted) past s := by
  have remains : Op.query (.findRefreshToken (runtime.hashJti jti)) ≠ .close := by simp
  refine ensures_held changes_run (lasts_stored _) (outlasts lasting) remains (fun _ _ => trivial) held ?_
  intro s reply all held replied after
  obtain ⟨_, known, found, _⟩ := held.view
  cases reply with
  | none =>
    -- The row that was validated is still there.
    rw [issued_of_none replied] at found
    cases found
  | some row =>
    have selected : issued (s.1.store.view number) (runtime.hashJti jti) = some row :=
      issued_of_unique replied
    dsimp only
    by_cases revoked : row.revoked = true
    · -- Nothing is written, and the row is one that the refresh looks at for the second time.
      rw [if_pos revoked]
      refine ensures_pure stable_revokes trivial (.inr ⟨after.descends, trivial, after.noted.1, ?_⟩)
      intro honest
      have unspent : Unspent runtime requests number s.2 (.query (.findRefreshToken (runtime.hashJti jti))) s.1 :=
        (met_snoc.mp honest).2
      have hash : row.tokenHash = runtime.hashJti jti := tokenHash_issued selected
      have rotates : Rotates s.2 (.query (.findRefreshToken (runtime.hashJti jti))) row := by
        rw [Rotates, hash]
        exact .inl ⟨rfl, again s.2 held.noted⟩
      have unrevoked := unspent refreshes row (List.mem_of_find?_eq_some selected) rotates
      exact Bool.false_ne_true (unrevoked.symm.trans revoked)
    rw [if_neg revoked]
    have kept : Held Changes number (Known (runtime.hashJti jti) row.id) noted
        (recorded (handle number) (.query (.findRefreshToken (runtime.hashJti jti))) s).2 :=
      ⟨after.descends, ⟨row, selected, rfl⟩, after.noted.1⟩
    change Ensures number (call (.query (.revokeRefreshToken row.id))) _ _ _
    rw [← bind_pure (call _)]
    have writes : Op.query (.revokeRefreshToken row.id) ≠ .close := by simp
    refine ensures_held changes_run (lasts_issued _ _) (outlasts lasting) writes (fun _ _ => trivial) kept ?_
    intro s reply all held replied after
    refine ensures_pure stable_revokes trivial ?_
    by_cases unspent : Unspent runtime requests number s.2 (.query (.revokeRefreshToken row.id)) s.1
    · obtain ⟨current, found, id⟩ := held.view
      have fresh : current.revokedBy = none := by
        have member := List.mem_of_find?_eq_some found
        simpa [RefreshToken.revoked] using unspent refreshes current member (.inr (congrArg some id.symm))
      refine .inl ⟨after.descends, ?_, after.noted.1⟩
      have revokes := @revoker_revoke number _ _ _ found fresh
      rw [id] at revokes
      have wrote := view_written rfl replied
      change revoker ((handle number _ s.1).2.store.view number) _ = _
      rw [wrote]
      exact revokes
    · refine .inr ⟨after.descends, trivial, after.noted.1, fun honest => unspent ?_⟩
      exact (met_snoc.mp honest).2

theorem claimed_of_decoded {now : Nat} {token : String} {data : RefreshTokenData}
    (decoded : decodeRefreshToken runtime now token = some data) :
    claimed runtime (some token) = some data := by
  rw [decodeRefreshToken] at decoded
  split at decoded
  · cases decoded
  next claims =>
    split_ifs at decoded
    cases decoded
    simp [claimed, claims]

def Refreshed (runtime : Runtime) (requests : Nat → TokenRequest) (number : Nat) (data : RefreshTokenData)
    (log : Log Op Shared) : Prop :=
  Admitted runtime requests number data log ∧
    (Honest runtime requests number log → Redeemed number (runtime.hashJti data.jti) log)

theorem lasting_admitted (data : RefreshTokenData) : Lasting (Admitted runtime requests number data) := by
  rintro log entry ⟨presented, ⟨row, looked⟩, enabled⟩
  exact ⟨lasting_presented _ _ log entry presented, ⟨row, lasting_looked _ _ log entry looked⟩,
    lasting_enabled _ log entry enabled⟩

/-- From the validated token to the new one. -/
theorem ensures_rotate {data : RefreshTokenData} {userId : Nat} {newJti : String}
    {answer : Answer} {past : List Op} {s : Shared × Log Op Shared}
    (refreshes : (requests number).refreshes runtime = some data)
    (held : Held Changes number (Stored (runtime.hashJti data.jti))
      (Admitted runtime requests number data) s) :
    Ensures number (do
        Api.revokeJti runtime data.jti
        Api.storeRefreshToken runtime userId newJti
        commit
        return answer : Work Answer)
      (Returns Anything fun _ s => Refreshed runtime requests number data s.2) past s := by
  have presents : ((requests number).refreshes runtime).isSome := Option.isSome_iff_exists.mpr ⟨data, refreshes⟩
  have lasting : Lasting (Admitted runtime requests number data) := lasting_admitted data
  have looked : ∀ log, Admitted runtime requests number data log → Selected (runtime.hashJti data.jti) log := by
    rintro log ⟨_, ⟨row, _, ⟨s, called, _⟩, _⟩, _⟩
    exact ⟨_, called, rfl⟩
  refine ensures_bind (ensures_revoke presents lasting looked held) ?_
  intro _ s all _ revoked
  rcases revoked with held | held
  · refine ensures_weaken (ensures_issue (lasts_revoker _ _) lasting held) ?_
    rintro _ s ⟨admitted, state, called, mine⟩
    exact ⟨admitted, fun _ => ⟨state, called, mine⟩⟩
  · refine ensures_weaken (ensures_issue lasts_whatever (Lasting.and lasting lasting_dishonest) held) ?_
    rintro _ s ⟨⟨admitted, dishonest⟩, _⟩
    exact ⟨admitted, fun honest => absurd honest dishonest⟩

theorem ensures_refresh {token : Option String} {newJti : String} {data : RefreshTokenData}
    {past : List Op} {s : Shared × Log Op Shared} (request : requests number = .refresh token newJti)
    (claims : (requests number).refreshes runtime = some data) (descends : Descends Changes s.1.store) :
    Ensures number (Api.refresh runtime token newJti)
      (Returns Anything fun _ s => Refreshed runtime requests number data s.2) past s := by
  cases token with
  | none => exact ensures_throw trivial
  | some token =>
    have claimedData : claimed runtime (some token) = some data := by
      rw [request] at claims
      exact claims
    have starts : Held Changes number Whatever Anything s := ⟨descends, trivial, trivial⟩
    have asks : Op.utcNow ≠ .close := by simp
    refine ensures_held changes_run lasts_whatever (outlasts lasting_anything) asks (fun _ _ => trivial) starts ?_
    intro s now all _ asked after
    have clock : s.1.now = now := Except.ok.inj asked
    cases decoded : decodeRefreshToken runtime now token with
    | none => exact ensures_throw trivial
    | some read =>
      -- what is decoded are the claims of the request
      obtain rfl : data = read := by
        rw [claimed_of_decoded decoded] at claimedData
        exact (Option.some.inj claimedData).symm
      have presented : Presented runtime (requests number) data (recorded (handle number) .utcNow s).2.2 := by
        refine ⟨token, newJti, s.1, request, after.noted.2, ?_⟩
        rw [clock]
        exact decoded
      have starts : Held Changes number Whatever (Presented runtime (requests number) data)
          (recorded (handle number) .utcNow s).2 := ⟨after.descends, trivial, presented⟩
      refine ensures_bind (ensures_validate (lasting_presented _ _) starts) ?_
      intro _ s all _ held
      have finds : Op.query (.findUser data.userId) ≠ .close := by simp
      have presents : Lasting (Presented runtime (requests number) data) := lasting_presented _ _
      have looked : Lasting fun log => ∃ row, Looked number (runtime.hashJti data.jti) row log := by
        rintro log entry ⟨row, looked⟩
        exact ⟨row, lasting_looked _ _ log entry looked⟩
      have lasting := Lasting.and presents looked
      refine ensures_held changes_run (lasts_stored _) (outlasts lasting) finds (fun _ _ => trivial) held ?_
      intro s reply all _ replied after
      cases reply with
      | none => exact ensures_throw trivial
      | some user =>
        dsimp only
        by_cases disabled : user.disabled = true
        · rw [if_pos disabled]
          exact ensures_throw trivial
        rw [if_neg disabled]
        obtain ⟨member, same⟩ := unique_some replied
        have enabled : Enabled number data.userId
            (recorded (handle number) (.query (.findUser data.userId)) s).2.2 :=
          ⟨s.1, user, member, after.noted.2, of_decide_eq_true same, by simpa using disabled⟩
        have admitted : Held Changes number (Stored (runtime.hashJti data.jti))
            (Admitted runtime requests number data)
            (recorded (handle number) (.query (.findUser data.userId)) s).2 :=
          ⟨after.descends, after.view, after.noted.1.1, after.noted.1.2, enabled⟩
        exact ensures_rotate claims admitted

/-! ## A logout -/

def Missed (number : Nat) (tokenHash : String) (log : Log Op Shared) : Prop :=
  ∀ s, (Op.query (.findRefreshToken tokenHash), s) ∈ log → issued (s.store.view number) tokenHash = none

def Uncommitted (log : Log Op Shared) : Prop := ∀ s, (Op.commit, s) ∉ log

def CommitsRevoked (number : Nat) (tokenHash : String) (log : Log Op Shared) : Prop :=
  ∀ s, (Op.commit, s) ∈ log → (revoker (s.store.view number) tokenHash).isSome

def Settled (number : Nat) (tokenHash : String) (log : Log Op Shared) : Prop :=
  Missed number tokenHash log ∨ CommitsRevoked number tokenHash log

def Revoked (tokenHash : String) (rows : Rows) : Prop := (revoker rows tokenHash).isSome

theorem lasts_revoked (tokenHash : String) : Lasts Changes (Revoked tokenHash) := by
  intro connection before after changes revoked
  obtain ⟨who, same⟩ := Option.isSome_iff_exists.mp revoked
  exact Option.isSome_iff_exists.mpr ⟨who, lasts_revoker tokenHash who _ _ _ changes same⟩

section
variable {tokenHash : String} {past : List Op} {s : Shared × Log Op Shared}

theorem outlasts_missed {op : Op} (other : op ≠ .query (.findRefreshToken tokenHash)) :
    Outlasts op (Missed number tokenHash) := by
  intro log s missed state member
  rcases List.mem_append.mp member with earlier | last
  · exact missed state earlier
  · cases List.mem_singleton.mp last
    exact absurd rfl other

theorem outlasts_uncommitted {op : Op} (other : op ≠ .commit) : Outlasts op Uncommitted := by
  intro log s uncommitted state member
  rcases List.mem_append.mp member with earlier | last
  · exact uncommitted state earlier
  · cases List.mem_singleton.mp last
    exact absurd rfl other

theorem settled_of_uncommitted {log : Log Op Shared} (uncommitted : Uncommitted log) :
    Settled number tokenHash log := .inr fun s member => absurd member (uncommitted s)

def Concluded (number : Nat) (tokenHash : String) (s : Shared × Log Op Shared) : Prop :=
  Held Changes number (Revoked tokenHash) Uncommitted s ∨
    Held Changes number Whatever (Missed number tokenHash) s

theorem stable_concluded :
    Stable (Aside fun _ => Others number) fun _ => Concluded number tokenHash := by
  intro past s next before moved
  rcases before with held | held
  · exact .inl (stable_held changes_run (lasts_revoked _) past s next held moved)
  · exact .inr (stable_held changes_run lasts_whatever past s next held moved)

theorem ensures_conclude {answer : Answer} (concluded : Concluded number tokenHash s) :
    Ensures number (commit >>= fun _ => pure answer : Work Answer)
      (Returns (Settled number tokenHash) fun _ _ => True) past s := by
  have other : Op.commit ≠ .query (.findRefreshToken tokenHash) := by simp
  have settles : ∀ s : Shared × Log Op Shared, Concluded number tokenHash s →
      Settled number tokenHash (s.2 ++ [(Op.commit, s.1)]) := by
    rintro s (held | held)
    · refine .inr fun state member => ?_
      rcases List.mem_append.mp member with earlier | last
      · exact absurd earlier (held.noted state)
      · cases List.mem_singleton.mp last
        exact held.view
    · exact .inl (outlasts_missed other _ _ held.noted)
  refine ensures_call (Concluded number tokenHash) stable_concluded concluded settles ?_
  intro s _ all concluded _
  refine ensures_pure ?_ (settles s concluded) trivial
  exact fun _ _ _ _ _ => trivial

theorem ensures_conclude_audited {answer : Answer} {entry : AuditEntry}
    (concluded : Concluded number tokenHash s) :
    Ensures number (run (.insertAudit entry) >>= fun _ => commit >>= fun _ => pure answer : Work Answer)
      (Returns (Settled number tokenHash) fun _ _ => True) past s := by
  have remains : Op.query (.insertAudit entry) ≠ .close := by simp
  rcases concluded with held | held
  · have quiet : Outlasts (.query (.insertAudit entry)) Uncommitted := outlasts_uncommitted (by simp)
    refine ensures_held changes_run (lasts_revoked _) quiet remains ?_ held ?_
    · intro s uncommitted
      exact settled_of_uncommitted (quiet _ _ uncommitted)
    · intro s _ all _ _ after
      exact ensures_conclude (.inl ⟨after.descends, after.view, after.noted.1⟩)
  · have quiet : Outlasts (.query (.insertAudit entry)) (Missed number tokenHash) := outlasts_missed (by simp)
    refine ensures_held changes_run lasts_whatever quiet remains ?_ held ?_
    · intro s missed
      exact .inl (quiet _ _ missed)
    · intro s _ all _ _ after
      exact ensures_conclude (.inr ⟨after.descends, after.view, after.noted.1⟩)

end

theorem revoker_isSome_revoke {connection : Nat} {rows : Rows} {tokenHash : String} {row : RefreshToken}
    (found : issued rows tokenHash = some row) :
    Revoked tokenHash (Statement.run connection rows (.revokeRefreshToken row.id)).2 := by
  cases before : row.revokedBy with
  | none => simp [Revoked, revoker_revoke found before]
  | some who =>
    have revoked : revoker rows tokenHash = some who := by rw [revoker, found]; exact before
    rw [Revoked, lasts_revoker tokenHash who _ _ _ (changes_run connection rows _) revoked]
    rfl

theorem ensures_revoke_first {jti : String} {past : List Op} {s : Shared × Log Op Shared}
    (held : Held Changes number Whatever
      (fun log => Missed number (runtime.hashJti jti) log ∧ Uncommitted log) s) :
    Ensures number (Api.revokeJti runtime jti)
      (Returns (Settled number (runtime.hashJti jti)) fun _ => Concluded number (runtime.hashJti jti)) past s := by
  have finds : Op.query (.findRefreshToken (runtime.hashJti jti)) ≠ .commit := by simp
  refine ensures_call _ (stable_held changes_run lasts_whatever) held ?_ ?_
  · intro s held
    exact settled_of_uncommitted (outlasts_uncommitted finds _ _ held.noted.2)
  intro s reply all held replied
  have descends : Descends Changes (handle number (.query (.findRefreshToken (runtime.hashJti jti))) s.1).2.store :=
    descends_handle (fun statement _ => changes_run _ _ statement) held.descends
  have uncommitted := outlasts_uncommitted finds _ s.1 held.noted.2
  cases reply with
  | none =>
    -- the token is not issued, and there is nothing to revoke
    refine ensures_pure stable_concluded (settled_of_uncommitted uncommitted) (.inr ⟨descends, trivial, ?_⟩)
    intro state member
    rcases List.mem_append.mp member with earlier | last
    · exact held.noted.1 state earlier
    · cases List.mem_singleton.mp last
      exact issued_of_none replied
  | some row =>
    have found := issued_of_unique replied
    dsimp only
    by_cases revoked : row.revoked = true
    · rw [if_pos revoked]
      have known : Revoked (runtime.hashJti jti) (s.1.store.view number) := by
        rw [Revoked, revoker, found]
        exact revoked
      exact ensures_pure stable_concluded (settled_of_uncommitted uncommitted)
        (.inl ⟨descends, known, uncommitted⟩)
    rw [if_neg revoked]
    have selected : Held Changes number (Known (runtime.hashJti jti) row.id) Uncommitted
        (recorded (handle number) (.query (.findRefreshToken (runtime.hashJti jti))) s).2 :=
      ⟨descends, ⟨row, found, rfl⟩, uncommitted⟩
    have quiet : Outlasts (.query (.revokeRefreshToken row.id)) Uncommitted := outlasts_uncommitted (by simp)
    change Ensures number (call (.query (.revokeRefreshToken row.id))) _ _ _
    rw [← bind_pure (call _)]
    refine ensures_held changes_run (lasts_issued _ _) quiet (by simp) ?_ selected ?_
    · intro s uncommitted
      exact settled_of_uncommitted (quiet _ _ uncommitted)
    -- someone else may have revoked the row meanwhile; by now it is revoked
    intro s _ all held replied after
    obtain ⟨current, present, id⟩ := held.view
    have revokes := @revoker_isSome_revoke number _ _ _ present
    rw [id] at revokes
    have view := view_written rfl replied
    refine ensures_pure stable_concluded (settled_of_uncommitted after.noted.1)
      (.inl ⟨after.descends, ?_, after.noted.1⟩)
    change Revoked _ ((handle number _ s.1).2.store.view number)
    rw [view]
    exact revokes

theorem ensures_audited {tokenHash : String} {userId : Option Nat} {past : List Op}
    {s : Shared × Log Op Shared} (concluded : Concluded number tokenHash s) :
    Ensures number (do
        recordAudit "auth.logout" "user" ((userId.map toString).getD "") "success" userId [] true
        return .noContent : Work Answer)
      (Returns (Settled number tokenHash) fun _ _ => True) past s := by
  rw [recordAudit, Proc.bind_assoc]
  exact ensures_conclude_audited concluded

theorem outlasts_clock {tokenHash : String} :
    Outlasts .utcNow fun log => Missed number tokenHash log ∧ Uncommitted log :=
  fun log s held => ⟨outlasts_missed (by simp) log s held.1, outlasts_uncommitted (by simp) log s held.2⟩

theorem ensures_logout {token : Option String} {data : RefreshTokenData} {past : List Op}
    {s : Shared × Log Op Shared} (claims : claimed runtime token = some data)
    (held : Held Changes number Whatever
      (fun log => Missed number (runtime.hashJti data.jti) log ∧ Uncommitted log) s) :
    Ensures number (Api.logout runtime token)
      (Returns (Settled number (runtime.hashJti data.jti)) fun _ _ => True) past s := by
  cases token with
  | none => cases claims
  | some token =>
    refine ensures_held changes_run lasts_whatever outlasts_clock (by simp) ?_ held ?_
    · intro s noted
      exact settled_of_uncommitted (outlasts_clock _ _ noted).2
    intro s now all _ _ after
    cases decoded : decodeRefreshToken runtime now token with
    | none => exact ensures_audited (.inr ⟨after.descends, trivial, after.noted.1.1⟩)
    | some read =>
      obtain rfl : data = read := by
        rw [claimed_of_decoded decoded] at claims
        exact (Option.some.inj claims).symm
      refine ensures_bind (ensures_revoke_first ⟨after.descends, trivial, after.noted.1⟩) ?_
      intro _ s all _ concluded
      exact ensures_audited concluded

theorem ensures_webLogout {token : Option String} {data : RefreshTokenData} {past : List Op}
    {s : Shared × Log Op Shared} (claims : claimed runtime token = some data)
    (held : Held Changes number Whatever
      (fun log => Missed number (runtime.hashJti data.jti) log ∧ Uncommitted log) s) :
    Ensures number (Web.logout runtime token)
      (Returns (Settled number (runtime.hashJti data.jti)) fun _ _ => True) past s := by
  cases token with
  | none => cases claims
  | some token =>
    refine ensures_held changes_run lasts_whatever outlasts_clock (by simp) ?_ held ?_
    · intro s noted
      exact settled_of_uncommitted (outlasts_clock _ _ noted).2
    intro s now all _ _ after
    cases decoded : decodeRefreshToken runtime now token with
    | none => exact ensures_pure (fun _ _ _ _ _ => trivial) (settled_of_uncommitted after.noted.1.2) trivial
    | some read =>
      obtain rfl : data = read := by
        rw [claimed_of_decoded decoded] at claims
        exact (Option.some.inj claims).symm
      refine ensures_bind (ensures_revoke_first ⟨after.descends, trivial, after.noted.1⟩) ?_
      intro _ s all _ concluded
      exact ensures_conclude concluded

/-! ## Every run -/

def Ends (runtime : Runtime) (requests : Nat → TokenRequest) (number : Nat) (result : Except Raised Answer)
    (s : Shared × Log Op Shared) : Prop :=
  (∀ data, (requests number).refreshes runtime = some data → ∀ answer, result = .ok answer →
      Refreshed runtime requests number data s.2) ∧
    ∀ data, (requests number).logsOut runtime = some data → Settled number (runtime.hashJti data.jti) s.2

theorem ensures_anything (work : Work Answer) (past : List Op) (s : Shared × Log Op Shared) :
    Ensures number work (fun _ _ => True) past s := by
  induction work generalizing past s with
  | done | raised => exact fun _ _ => trivial
  | call op k ih => exact fun _ _ => ih _ _ _

theorem settled_close {tokenHash : String} {log : Log Op Shared} {s : Shared}
    (settled : Settled number tokenHash log) : Settled number tokenHash (log ++ [(.close, s)]) := by
  rcases settled with missed | revoked
  · exact .inl (outlasts_missed (by simp) log s missed)
  · refine .inr fun state member => revoked state ?_
    rcases List.mem_append.mp member with earlier | last
    · exact earlier
    · cases List.mem_singleton.mp last

theorem ensures_loggedOut {work : Work Answer} {data : RefreshTokenData} {s : Shared × Log Op Shared}
    (works : Ensures number work (Returns (Settled number (runtime.hashJti data.jti)) fun _ _ => True) [] s) :
    Ensures number (withSession work)
      (Returns (Settled number (runtime.hashJti data.jti)) fun _ _ => True) [] s :=
  ensures_withSession (fun _ _ _ _ _ _ => trivial) (fun _ _ _ _ _ _ => trivial)
    (fun _ _ => settled_close) (fun _ _ _ => trivial) works

theorem lasting_refreshed (data : RefreshTokenData) : Lasting (Refreshed runtime requests number data) := by
  rintro log entry ⟨admitted, redeems⟩
  refine ⟨lasting_admitted data log entry admitted, fun honest => ?_⟩
  obtain ⟨s, member, mine⟩ := redeems (met_snoc.mp honest).1
  exact ⟨s, List.mem_append_left _ member, mine⟩

theorem ensures_refreshed {token : Option String} {newJti : String} {s : Shared}
    (request : requests number = .refresh token newJti) (descends : Descends Changes s.store) :
    Ensures number (withSession (Api.refresh runtime token newJti)) (Ends runtime requests number) [] (s, []) := by
  have noLogout : (requests number).logsOut runtime = none := by rw [request]; rfl
  cases claims : (requests number).refreshes runtime with
  | none =>
    refine Along.mono (ensures_anything _ _ _) ?_
    intro result all final _
    exact ⟨by simp [claims], by simp [noLogout]⟩
  | some data =>
    have stable : ∀ _ : Answer, Stable (Aside fun _ => Others number)
        (Of (Refreshed runtime requests number data)) := fun _ => stable_of _
    have works := @ensures_refresh runtime number requests _ _ _ [] (s, []) request claims descends
    refine Along.mono (ensures_withSession stable stable (fun _ _ _ => trivial) ?_ works) ?_
    · exact fun _ s refreshed => lasting_refreshed data _ _ refreshed
    · intro result all final ends
      constructor
      · intro other same answer returned
        rw [claims] at same
        cases same
        exact ends.2 answer returned
      · simp [noLogout]

theorem ensures_work {s : Shared} (descends : Descends Changes s.store) :
    Ensures number ((requests number).work runtime) (Ends runtime requests number) [] (s, []) := by
  have nothing : ∀ tokenHash, Missed number tokenHash [] := by
    intro tokenHash s member
    cases member
  have fresh : ∀ tokenHash, Held Changes number Whatever
      (fun log => Missed number tokenHash log ∧ Uncommitted log) (s, []) :=
    fun tokenHash => ⟨descends, trivial, nothing tokenHash, fun _ => List.not_mem_nil⟩
  -- requests that present no token to be refreshed or revoked
  have other : (requests number).refreshes runtime = none → (requests number).logsOut runtime = none →
      Ensures number ((requests number).work runtime) (Ends runtime requests number) [] (s, []) := by
    intro noRefresh noLogout
    refine Along.mono (ensures_anything _ _ _) ?_
    intro result all final _
    exact ⟨by simp [noRefresh], by simp [noLogout]⟩
  -- both logouts, whatever they do beside revoking
  have logout : ∀ (work : Work Answer) (token : Option String),
      (requests number).refreshes runtime = none → (requests number).logsOut runtime = claimed runtime token →
      (∀ data, claimed runtime token = some data →
        Ensures number work (Returns (Settled number (runtime.hashJti data.jti)) fun _ _ => True) [] (s, [])) →
      Ensures number (withSession work) (Ends runtime requests number) [] (s, []) := by
    intro work token noRefresh logsOut works
    cases claims : claimed runtime token with
    | none =>
      refine Along.mono (ensures_anything _ _ _) ?_
      intro result all final _
      exact ⟨by simp [noRefresh], by simp [logsOut, claims]⟩
    | some data =>
      refine Along.mono (ensures_loggedOut (works data claims)) ?_
      intro result all final ends
      refine ⟨by simp [noRefresh], ?_⟩
      intro other same
      rw [logsOut, claims] at same
      cases same
      exact ends.1
  cases request : requests number with
  | login body jti | webLogin username password jti =>
    rw [request] at other
    exact other rfl rfl
  | refresh token newJti => exact ensures_refreshed request descends
  | logout token =>
    rw [request] at logout
    exact logout _ token rfl rfl fun data claims => ensures_logout claims (fresh _)
  | webLogout token =>
    rw [request] at logout
    exact logout _ token rfl rfl fun data claims => ensures_webLogout claims (fresh _)

variable (runtime requests) in
def reached (rows : Rows) (now : Nat) (turns : List (Turn Nat)) : Pool Op Reply Raised Answer Shared :=
  Runs.run (serve fun number => (requests number).work runtime) (Pool.empty (opened rows now)) turns

/-- A token that is revoked along a connection's statements was so before, or it revoked it. -/
theorem revoker_path {connection : Nat} {before after : Rows} {tokenHash : String} {who : Revoker}
    (path : Relation.ReflTransGen (Changes connection) before after)
    (revoked : revoker after tokenHash = some who) :
    revoker before tokenHash = some who ∨ who = .request connection := by
  induction path with
  | refl => exact .inl revoked
  | tail _ last ih =>
    rcases revoker_changes last revoked with earlier | mine
    · exact ih earlier
    · exact .inr mine

/-- Whoever revoked a token in the committed rows has committed. -/
structure Attributed (pool : Pool Op Reply Raised Answer Shared) : Prop where
  descends : Descends Changes pool.shared.store
  revoked : ∀ tokenHash number, revoker pool.shared.store.committed tokenHash = some (.request number) →
    HasCommitted pool number

theorem attributed_step {work : Nat → Work Answer} {pool : Pool Op Reply Raised Answer Shared}
    {turn : Turn Nat} (attributed : Attributed pool) : Attributed (serve work pool turn) := by
  have lasts : ∀ number, HasCommitted pool number → HasCommitted (serve work pool turn) number :=
    fun number => hasCommitted_step
  have moved := Pool.step_moved work handle tick pool turn
  change ∀ number, HasCommitted pool number → HasCommitted (Pool.step work handle tick pool turn) number at lasts
  change Attributed (Pool.step work handle tick pool turn)
  generalize Pool.step work handle tick pool turn = after at moved lasts
  cases moved with
  | idle => exact attributed
  | outside | started => exact ⟨attributed.descends, fun hash number mine => lasts _ (attributed.revoked hash number mine)⟩
  | @served serving op k log called =>
    refine ⟨descends_handle (fun statement _ => changes_run _ _ statement) attributed.descends, ?_⟩
    intro tokenHash number revoked
    by_cases commits : op = .commit
    · subst commits
      change revoker (pool.shared.store.commit serving).committed tokenHash = _ at revoked
      rw [Store.committed_commit] at revoked
      rcases revoker_path attributed.descends.view revoked with earlier | mine
      · exact lasts _ (attributed.revoked tokenHash number earlier)
      · cases mine
        refine ⟨_, by rw [Pool.activities_put, if_pos rfl], pool.shared, ?_⟩
        exact List.mem_append_right _ (List.mem_singleton_self _)
    · change revoker (handle serving op pool.shared).2.store.committed tokenHash = _ at revoked
      rw [committed_handle commits] at revoked
      exact lasts _ (attributed.revoked tokenHash number revoked)

/-- A request that presents these claims has been answered with new tokens. -/
def Redeems (runtime : Runtime) (requests : Nat → TokenRequest) (pool : Pool Op Reply Raised Answer Shared)
    (number : Nat) (data : RefreshTokenData) : Prop :=
  (requests number).refreshes runtime = some data ∧ (pool.returned number).isSome

instance (runtime : Runtime) (requests : Nat → TokenRequest) (pool : Pool Op Reply Raised Answer Shared)
    (number : Nat) (data : RefreshTokenData) : Decidable (Redeems runtime requests pool number data) :=
  inferInstanceAs (Decidable (_ ∧ _))

/-- A logout with the token, which was issued when it looked, has committed. -/
def LoggedOut (runtime : Runtime) (requests : Nat → TokenRequest) (pool : Pool Op Reply Raised Answer Shared)
    (jti : String) : Prop :=
  ∃ number data activity, (requests number).logsOut runtime = some data ∧ data.jti = jti ∧
    pool.activities number = some activity ∧
    (∃ s, (Op.query (.findRefreshToken (runtime.hashJti jti)), s) ∈ activity.log ∧
      issued (s.store.view number) (runtime.hashJti jti) ≠ none) ∧
    ∃ s, (Op.commit, s) ∈ activity.log

section
variable {rows : Rows} {now : Nat} {turns : List (Turn Nat)}

theorem attributed_reached
    (earlier : ∀ row ∈ rows.refreshTokens, ∀ number, row.revokedBy ≠ some (.request number)) :
    Attributed (reached runtime requests rows now turns) := by
  apply invariant_run_of_forall
  · exact fun pool turn => attributed_step
  · refine ⟨descends_of_free rfl, ?_⟩
    intro tokenHash number revoked
    change revoker rows tokenHash = _ at revoked
    rw [revoker] at revoked
    obtain ⟨row, found, mine⟩ := Option.bind_eq_some_iff.mp revoked
    exact absurd mine (earlier row (List.mem_of_find?_eq_some found) number)

theorem published_reached : Published Changes (reached runtime requests rows now turns) :=
  published_run changes_run _ _ _ _

theorem revoker_reached {number : Nat}
    {activity : Activity Op Reply Raised Answer Shared} {s : Shared} {tokenHash : String} {who : Revoker}
    (found : (reached runtime requests rows now turns).activities number = some activity)
    (member : (Op.commit, s) ∈ activity.log) (revoked : revoker (s.store.view number) tokenHash = some who) :
    revoker (reached runtime requests rows now turns).shared.store.committed tokenHash = some who :=
  published_reached.remains number activity s found member _ (lasts_revoker tokenHash who) revoked

theorem follow_reached :
    Pool.Follow handle Others (Ends runtime requests) (reached runtime requests rows now turns) := by
  have contracts : ∀ number, ((requests number).work runtime).Keeps (fun _ _ => True) (fun _ => True) fun _ => True :=
    fun number => keeps_anything _
  have keeps : ∀ (number : Nat) (op : Op) s, True → True → Descends Changes s.store →
      Descends Changes (handle number op s).2.store :=
    fun _ _ _ _ _ => descends_handle fun statement _ => changes_run _ _ statement
  have served : Meets (serve fun number => (requests number).work runtime) (Pool.Served fun _ _ _ => True)
      (Pool.empty (opened rows now)) turns := meets_of_forall Pool.served_anything _ _
  refine Pool.follow_run (fun _ _ _ _ => trivial) contracts keeps (fun _ _ descends => descends) ?_ ?_ ?_
    (descends_of_free rfl) served
  · intro number s descends
    exact ensures_work descends
  · intro number other op s apart _ _ _
    exact .inl ⟨other, op, apart, rfl⟩
  · intro number seconds s _
    exact .inr ⟨seconds, rfl⟩

theorem honest_reached {number : Nat} {activity : Activity Op Reply Raised Answer Shared}
    (unspent : Meets (serve fun number => (requests number).work runtime)
      (Pool.ServedAfter (Unspent runtime requests)) (Pool.empty (opened rows now)) turns)
    (found : (reached runtime requests rows now turns).activities number = some activity) :
    Honest runtime requests number activity.log := Pool.met_run unspent number activity found

theorem redeems_refreshed {number : Nat} {data : RefreshTokenData}
    (unspent : Meets (serve fun number => (requests number).work runtime)
      (Pool.ServedAfter (Unspent runtime requests)) (Pool.empty (opened rows now)) turns)
    (redeems : Redeems runtime requests (reached runtime requests rows now turns) number data) :
    ∃ activity, (reached runtime requests rows now turns).activities number = some activity ∧
      Admitted runtime requests number data activity.log ∧
      Redeemed number (runtime.hashJti data.jti) activity.log := by
  obtain ⟨claims, ended⟩ := redeems
  obtain ⟨answer, returned⟩ := Option.isSome_iff_exists.mp ended
  obtain ⟨log, found⟩ := Pool.returned_some returned
  obtain ⟨admitted, redeemed⟩ := (follow_reached.returned found).1 data claims answer rfl
  exact ⟨_, found, admitted, redeemed (honest_reached unspent found)⟩

end

end

/-- In every run of token requests whose refreshes find their rows unrevoked, when they look for the
second time and when they write: a token is redeemed at most once, by a request that has committed if a logout with it has, and that
found it known, unexpired and its user enabled. -/
theorem redeemed_at_most_once (runtime : Runtime) (requests : Nat → TokenRequest) (rows : Rows) (now : Nat)
    (earlier : ∀ row ∈ rows.refreshTokens, ∀ number, row.revokedBy ≠ some (.request number))
    (turns : List (Turn Nat))
    (unspent : Meets (serve fun number => (requests number).work runtime)
      (Pool.ServedAfter (Unspent runtime requests)) (Pool.empty (opened rows now)) turns) :
    (∀ first second data other, Redeems runtime requests (reached runtime requests rows now turns) first data →
      Redeems runtime requests (reached runtime requests rows now turns) second other →
      data.jti = other.jti → first = second) ∧
    (∀ before after number data, turns = before ++ after →
      LoggedOut runtime requests (reached runtime requests rows now before) data.jti →
      Redeems runtime requests (reached runtime requests rows now turns) number data →
      HasCommitted (reached runtime requests rows now before) number) ∧
    ∀ number data, Redeems runtime requests (reached runtime requests rows now turns) number data →
      ∃ activity, (reached runtime requests rows now turns).activities number = some activity ∧
        Admitted runtime requests number data activity.log := by
  refine ⟨?_, ?_, ?_⟩
  · intro first second data other one two same
    obtain ⟨_, found, _, s, member, mine⟩ := redeems_refreshed unspent one
    obtain ⟨_, found', _, s', member', mine'⟩ := redeems_refreshed unspent two
    have here := revoker_reached found member mine
    have there := revoker_reached found' member' mine'
    rw [same, there] at here
    cases here
    rfl
  · rintro before after number data rfl ⟨logout, out, activity, claims, same, found, ⟨s, looked, issued⟩, s', committed⟩ redeems
    -- The logout committed the token as revoked, and by then it was the refresh that had revoked it.
    obtain ⟨_, final, more, ends⟩ := follow_reached.ends found
    have settled := ends.2 _ claims
    rw [same] at settled
    rcases settled with missed | revoked
    · exact absurd (missed s (List.mem_append_left _ looked)) issued
    obtain ⟨who, revokedBy⟩ := Option.isSome_iff_exists.mp (revoked s' (List.mem_append_left _ committed))
    have logged := revoker_reached found committed revokedBy
    obtain ⟨_, found', _, s'', member, mine⟩ := redeems_refreshed unspent redeems
    have here := revoker_reached found' member mine
    have attributed := @attributed_reached runtime requests rows now before earlier
    have kept := lasts_run changes_run (lasts_revoker _ who) (fun number => (requests number).work runtime)
      attributed.descends logged after
    rw [reached, run_append] at here
    change revoker (Runs.run _ (reached runtime requests rows now before) after).shared.store.committed _ = _ at here
    rw [kept] at here
    cases here
    exact attributed.revoked _ number logged
  · intro number data redeems
    obtain ⟨activity, found, admitted, _⟩ := redeems_refreshed unspent redeems
    exact ⟨activity, found, admitted⟩

/-! ## One cookie, two requests -/

def oneCookie : Runtime := .reading station [] [("cookie", ⟨1, "first"⟩)]

def cookieRows : Rows :=
  { Rows.empty with
    users := [⟨⟨1, .user⟩, "ada", "", false⟩], refreshTokens := [⟨1, 1, "first", 1000, none⟩] }

def sameCookie (number : Nat) : TokenRequest :=
  .refresh (some "cookie") (if number = 0 then "second" else "third")

def served (number count : Nat) : List (Turn Nat) := List.replicate count (.serve number)

def afterEachOther : List (Turn Nat) := .start 0 :: served 0 10 ++ .start 1 :: served 1 5

/-- Both validate the token before either revokes it. -/
def crossing : List (Turn Nat) := .start 0 :: .start 1 :: served 0 4 ++ served 1 4 ++ served 0 6 ++ served 1 6

theorem redeemed_at_most_once_after_another :
    Redeems oneCookie sameCookie (reached oneCookie sameCookie cookieRows 0 afterEachOther) 0 ⟨1, "first"⟩ ∧
      ¬ Redeems oneCookie sameCookie (reached oneCookie sameCookie cookieRows 0 afterEachOther) 1 ⟨1, "first"⟩ := by
  have first : Redeems oneCookie sameCookie (reached oneCookie sameCookie cookieRows 0 afterEachOther) 0
      ⟨1, "first"⟩ := by decide +kernel
  have once := redeemed_at_most_once oneCookie sameCookie cookieRows 0 (by simp [cookieRows]) afterEachOther
    (by decide +kernel)
  refine ⟨first, fun second => ?_⟩
  exact absurd (once.1 0 1 _ _ first second rfl) (by decide)

theorem token_redeemed_twice :
    Redeems oneCookie sameCookie (reached oneCookie sameCookie cookieRows 0 crossing) 0 ⟨1, "first"⟩ ∧
      Redeems oneCookie sameCookie (reached oneCookie sameCookie cookieRows 0 crossing) 1 ⟨1, "first"⟩ := by
  decide +kernel

end Csl.Server.Session.RefreshOnce
