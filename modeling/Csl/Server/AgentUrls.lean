import Csl.Agent.Endpoints
import Csl.Server.Api.Scripts
import Csl.Server.Auth.Installation

/-! The URLs by which an agent is asked for a script.

The client puts the name of a script into a path as it is. The agent routes what the HTTP
libraries on both sides make of that path.
-/

set_option autoImplicit false

namespace Csl.Server.Session.AgentUrls
open Csl.Shared Csl.Agent

inductive ScriptEndpoint where
  | state
  | stage
  deriving DecidableEq, Repr

inductive Method where
  | get
  | post
  deriving DecidableEq, Repr

def ScriptEndpoint.method : ScriptEndpoint → Method
  | .state => .get
  | .stage => .post

def ScriptEndpoint.url (name : String) : ScriptEndpoint → String
  | .state => "/scripts/" ++ name ++ "/state"
  | .stage => "/scripts/" ++ name ++ "/stage"

/-- The endpoint that the agent's routes give a path, with its path parameter: a segment that is
not empty. -/
def route (method : Method) (path : String) : Option (ScriptEndpoint × String) :=
  match path.toList.splitOn '/' with
  | [start, scripts, name, last] =>
    if start = [] ∧ scripts = "scripts".toList ∧ name ≠ [] then
      match method with
      | .get => if last = "state".toList then some (.state, String.ofList name) else none
      | .post => if last = "stage".toList then some (.stage, String.ofList name) else none
    else none
  | _ => none

/-- httpx and the agent's HTTP server: the path that a request for a relative URL is routed by.
Nothing is routed when the client refuses the URL. -/
structure Http where
  routed : String → Option String

def unreserved (c : Char) : Bool :=
  asciiLetterOrDigit c || c = '-' || c = '.' || c = '_' || c = '~'

def pathOf (segments : List (List Char)) : String := String.ofList ('/' :: ['/'].intercalate segments)

/-- Segments of unreserved characters are not escaped, and only those that consist of one or two
dots are removed, in URLs that are not too long. -/
def Http.Documented (http : Http) : Prop :=
  ∀ segments : List (List Char), segments ≠ [] → (pathOf segments).length ≤ 65536 →
    (∀ segment ∈ segments, segment ≠ [] ∧ segment ≠ ['.'] ∧ segment ≠ ['.', '.'] ∧
      ∀ c ∈ segment, unreserved c = true) →
    http.routed (pathOf segments) = some (pathOf segments)

/-- The requests for the script are routed to its endpoints with exactly its name, which passes
the checks there. -/
def Reaches (http : Http) (name : String) : Prop :=
  ∀ endpoint : ScriptEndpoint,
    (http.routed (endpoint.url name)).bind (route endpoint.method) = some (endpoint, name) ∧
      EndpointName name

structure PlainName (name : String) : Prop where
  nonempty : name ≠ ""
  short : name.length ≤ maxScriptNameLength
  characters : ∀ c ∈ name.toList, allowedCharacter c = true
  ends : name.toList.getLast? ≠ some '.'
  device : String.ofList ((stem name.toList).map Char.toUpper) ∉ windowsReserved

/-! ## The agent's checks -/

theorem allowedMatch_of_all {name : List Char} (some : name ≠ [])
    (allowed : ∀ c ∈ name, allowedCharacter c = true) : allowedMatch name = true := by
  have plain : name.getLast? ≠ Option.some '\n' := by
    intro newline
    have member := List.mem_of_getLast? newline
    exact absurd (allowed _ member) (by decide)
  have all : name.all allowedCharacter = true := List.all_eq_true.mpr allowed
  simp only [allowedMatch, if_neg plain, all, Bool.and_true]
  simpa using some

theorem not_all_dots {name : List Char} (some : name ≠ []) (ends : name.getLast? ≠ Option.some '.') :
    ¬ name.all (· = '.') = true := by
  intro dots
  apply ends
  rw [List.getLast?_eq_some_getLast some]
  have last := List.all_eq_true.mp dots _ (List.getLast_mem some)
  exact congrArg Option.some (of_decide_eq_true last)

theorem endpointName_iff (name : String) : EndpointName name ↔ PlainName name := by
  have empty : name = "" ↔ name.toList = [] := by simp
  constructor
  · rintro ⟨some, allowed, accepted⟩
    unfold Accepted validateScriptName at accepted
    split_ifs at accepted with h1 h2 h3 h4 h5 h6
    exact ⟨h1, not_lt.mp h2, allowed, h5, h6⟩
  · intro plain
    have some : name.toList ≠ [] := fun none => plain.nonempty (empty.mpr none)
    refine ⟨some, plain.characters, ?_⟩
    unfold Accepted validateScriptName
    rw [if_neg plain.nonempty, if_neg (not_lt.mpr plain.short), allowedMatch_of_all some plain.characters,
      if_neg (by simp), if_neg (not_all_dots some plain.ends), if_neg plain.ends, if_neg plain.device]

/-! ## The way to the agent -/

theorem allowed_unreserved {c : Char} (allowed : allowedCharacter c = true) : unreserved c = true := by
  simp only [allowedCharacter, unreserved, Bool.or_eq_true, decide_eq_true_eq] at allowed ⊢
  tauto

theorem allowed_not_slash {name : List Char} (allowed : ∀ c ∈ name, allowedCharacter c = true) : '/' ∉ name :=
  fun slash => absurd (allowed _ slash) (by decide)

def ScriptEndpoint.word : ScriptEndpoint → List Char
  | .state => "state".toList
  | .stage => "stage".toList

theorem url_eq (name : String) (endpoint : ScriptEndpoint) :
    endpoint.url name = pathOf ["scripts".toList, name.toList, endpoint.word] := by
  apply String.toList_injective
  cases endpoint <;> simp [ScriptEndpoint.url, ScriptEndpoint.word, pathOf]

theorem route_plain {name : String} (plain : PlainName name) (endpoint : ScriptEndpoint) :
    route endpoint.method (endpoint.url name) = some (endpoint, name) := by
  have some : name.toList ≠ [] := fun none => plain.nonempty (by simpa using none)
  have whole : (endpoint.url name).toList =
      ['/'].intercalate [[], "scripts".toList, name.toList, endpoint.word] := by
    rw [url_eq, pathOf, String.toList_ofList]
    simp
  have split : (endpoint.url name).toList.splitOn '/' = [[], "scripts".toList, name.toList, endpoint.word] := by
    rw [whole, List.splitOn_intercalate]
    · intro segment member
      simp only [List.mem_cons, List.not_mem_nil, or_false] at member
      rcases member with rfl | rfl | rfl | rfl
      · exact List.not_mem_nil
      · decide
      · exact allowed_not_slash plain.characters
      · cases endpoint <;> decide
    · exact List.cons_ne_nil _ _
  rw [route, split]
  cases endpoint <;> simp [ScriptEndpoint.method, ScriptEndpoint.word, some]

theorem routed_plain {http : Http} (documented : http.Documented) {name : String} (plain : PlainName name)
    (endpoint : ScriptEndpoint) : http.routed (endpoint.url name) = some (endpoint.url name) := by
  have some : name.toList ≠ [] := fun none => plain.nonempty (by simpa using none)
  rw [url_eq]
  apply documented
  · exact List.cons_ne_nil _ _
  · rw [← url_eq]
    have short := plain.short
    unfold maxScriptNameLength at short
    have lengths : "/scripts/".length = 9 ∧ "/state".length = 6 ∧ "/stage".length = 6 := by decide
    cases endpoint <;> simp only [ScriptEndpoint.url, String.length_append] <;> omega
  · intro segment member
    simp only [List.mem_cons, List.not_mem_nil, or_false] at member
    rcases member with rfl | rfl | rfl
    · have letters : "scripts".toList.all unreserved = true := by decide
      exact ⟨by decide, by decide, by decide, List.all_eq_true.mp letters⟩
    · refine ⟨some, ?_, ?_, fun c inside => allowed_unreserved (plain.characters c inside)⟩
      · intro dot
        exact plain.ends (by rw [dot]; rfl)
      · intro dots
        exact plain.ends (by rw [dots]; rfl)
    · have letters : endpoint.word.all unreserved = true := by cases endpoint <;> decide
      exact ⟨by cases endpoint <;> decide, by cases endpoint <;> decide, by cases endpoint <;> decide,
        List.all_eq_true.mp letters⟩

theorem reaches_iff {http : Http} (documented : http.Documented) (name : String) :
    Reaches http name ↔ PlainName name := by
  constructor
  · intro reaches
    exact (endpointName_iff name).mp (reaches .state).2
  · intro plain endpoint
    refine ⟨?_, (endpointName_iff name).mpr plain⟩
    rw [routed_plain documented plain, Option.bind_some, route_plain plain]

/-! ## Created scripts -/

/-- What the API, the web form and seeding do with a new script. -/
def createdAs (runtime : Runtime) (name content : String) (metaYaml : Option String) (userId : Nat) :
    Work Script := do
  let fields ← createScript runtime name content metaYaml userId
  let script ← run (.insertScript fields)
  commit
  return script

theorem script_created {runtime : Runtime} {name content : String} {metaYaml : Option String} {userId : Nat}
    {rows : Rows} {now : Nat} (free : ∀ script ∈ rows.scripts, script.name ≠ name)
    (valid : validateMeta runtime.toPlatform metaYaml = .ok ()) :
    ∃ script ∈ ((createdAs runtime name content metaYaml userId).run (handle 0)
      (opened rows now)).2.store.committed.scripts, script.name = name := by
  -- the request finds no row of the name, inserts one and commits it
  have unused : rows.scripts.filter (·.name = name) = [] := by
    rw [List.filter_eq_nil_iff]
    intro script member same
    exact free script member (of_decide_eq_true same)
  have found : handle 0 (.query (.findScript name)) (opened rows now) = (.ok none, opened rows now) := by
    simp [handle, Statement.writes, Statement.run, Rows.unique, opened, Transactions.Store.view, unused]
  have clock : handle 0 .utcNow (opened rows now) = (.ok now, opened rows now) := rfl
  let fields := versionFields runtime name content metaYaml userId (runtime.timestamp now)
  have creates : (createScript runtime name content metaYaml userId).run (handle 0) (opened rows now) =
      (.ok fields, opened rows now) := by
    simp only [createScript, run, utcNow, call, Proc.run_bind, Proc.run_perform, found, clock, valid,
      raiseRegistry, Proc.run_pure, Proc.follow_ok]
    rfl
  have named : fields.name = name := rfl
  have absent : ¬ rows.scripts.any (·.name = fields.name) = true := by
    rw [named]
    simpa using free
  let script := fields.row (nextRowid (rows.scripts.map (·.id)))
  let after : Rows := { rows with scripts := rows.scripts ++ [script] }
  have inserts : handle 0 (.query (.insertScript fields)) (opened rows now) =
      (.ok script, ⟨(opened rows now).store.write 0 after, now⟩) := by
    have written : Statement.run 0 rows (.insertScript fields) = (.ok script, after) := by
      simp only [Statement.run, Rows.insertScript]
      rw [if_neg absent]
    have writes : (Statement.insertScript fields).writes = true := rfl
    have view : (opened rows now).store.view 0 = rows := rfl
    simp only [handle, if_pos writes, view, written]
    rfl
  have commits : handle 0 .commit ⟨(opened rows now).store.write 0 after, now⟩ = (.ok (), opened after now) := rfl
  have runs : (createdAs runtime name content metaYaml userId).run (handle 0) (opened rows now) =
      (.ok script, opened after now) := by
    simp only [createdAs, Proc.run_bind, creates, Proc.follow_ok, run, commit, call, Proc.run_perform,
      inserts, commits, Proc.run_pure]
  rw [runs]
  exact ⟨script, List.mem_append_right _ (List.mem_singleton_self _), named⟩

/-- A script is created under every free name, and can be asked for just when the name is plain. -/
theorem script_reaches_agent_iff (http : Http) (documented : http.Documented) (runtime : Runtime)
    (name content : String) (metaYaml : Option String) (userId : Nat) (rows : Rows) (now : Nat)
    (free : ∀ script ∈ rows.scripts, script.name ≠ name)
    (valid : validateMeta runtime.toPlatform metaYaml = .ok ()) :
    (∃ script ∈ ((createdAs runtime name content metaYaml userId).run (handle 0)
      (opened rows now)).2.store.committed.scripts, script.name = name) ∧
    (Reaches http name ↔ PlainName name) :=
  ⟨script_created free valid, reaches_iff documented name⟩

/-! ## One administrator's scripts -/

def asWritten : Http where
  routed url := if url.toList.all (fun c => unreserved c || c = '/') then some url else none

theorem mem_intercalate {segments : List (List Char)} {c : Char} (member : c ∈ ['/'].intercalate segments) :
    c = '/' ∨ ∃ segment ∈ segments, c ∈ segment := by
  induction segments with
  | nil => cases member
  | cons first rest ih =>
    cases rest with
    | nil =>
      rw [List.intercalate_singleton] at member
      exact .inr ⟨first, List.mem_cons_self, member⟩
    | cons second others =>
      rw [List.intercalate_cons_cons, List.append_assoc, List.mem_append] at member
      rcases member with here | later
      · exact .inr ⟨first, List.mem_cons_self, here⟩
      rcases List.mem_cons.mp later with slash | further
      · exact .inl slash
      · rcases ih further with slash | ⟨segment, found, inside⟩
        · exact .inl slash
        · exact .inr ⟨segment, List.mem_cons_of_mem _ found, inside⟩

theorem asWritten_documented : asWritten.Documented := by
  intro segments _ _ plain
  have all : (pathOf segments).toList.all (fun c => unreserved c || c = '/') = true := by
    rw [pathOf, String.toList_ofList, List.all_eq_true]
    intro c member
    rcases List.mem_cons.mp member with slash | later
    · simp [slash]
    · rcases mem_intercalate later with slash | ⟨segment, found, inside⟩
      · simp [slash]
      · simp [(plain segment found).2.2.2 c inside]
  exact if_pos all

theorem script_reaches_agent_deploy : Reaches asWritten "deploy.sh" := by
  have created := script_reaches_agent_iff asWritten asWritten_documented office "deploy.sh" "echo 1" none 1
    Rows.empty 0 (by simp [Rows.empty]) rfl
  have allowed : "deploy.sh".toList.all allowedCharacter = true := by decide
  exact created.2.mpr ⟨by decide, by decide, List.all_eq_true.mp allowed, by decide, by decide⟩

/-- The API creates a script whose name has a slash, which the agent does not route. -/
theorem slash_does_not_reach :
    ((Api.createScriptEndpoint office ⟨"tools/deploy.sh", "echo 1", none⟩ (some "ada")).run (handle 0)
        (opened { Rows.empty with users := [⟨⟨1, .admin⟩, "ada", "", false⟩] } 0)).2.store.committed.scripts.any
          (·.name = "tools/deploy.sh") = true ∧
      ¬ Reaches asWritten "tools/deploy.sh" := by
  constructor
  · decide +kernel
  · intro reaches
    have routed := (reaches .state).1
    revert routed
    decide +kernel

end Csl.Server.Session.AgentUrls
