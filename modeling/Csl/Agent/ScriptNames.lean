import Csl.Agent.Paths
import Csl.Shared.ScriptName
import Mathlib.Data.List.TakeWhile

/-! The names that validate_script_name accepts, against their grammar.

The character check is a regular expression that ends in `$`, which also matches before a newline
at the end of the text.
-/

set_option autoImplicit false

namespace Csl.Agent.ScriptNames
open Csl.Shared

/-- The documented grammar. -/
structure ScriptName (name : String) : Prop where
  nonempty : 1 ≤ name.length
  short : name.length ≤ 100
  plain : ∀ c ∈ name.toList, asciiLetterOrDigit c = true ∨ c = '_' ∨ c = '-' ∨ c = '.'
  notDots : ∃ c ∈ name.toList, c ≠ '.'
  ends : name.toList.getLast? ≠ some '.'
  device : String.ofList ((stem name.toList).map Char.toUpper) ∉ windowsReserved

/-- Accepted names are returned, and joined to a directory they name a file of that directory. -/
def Guards (name : String) : Prop :=
  (validateScriptName name = .ok name ↔ ScriptName name) ∧
    (validateScriptName name = .ok name →
      ∀ (host : Host) (directory : Location), host.DirectlyIn directory (host.join directory name))

/-- A text of allowed characters with a newline after it: not too long together, and no reserved
name before its first dot. Without a dot, the newline belongs to what is compared. -/
def Trailing (name : String) : Prop :=
  ∃ text, name.toList = text ++ ['\n'] ∧ text ≠ [] ∧ text.length < 100 ∧
    (∀ c ∈ text, allowedCharacter c = true) ∧
    ('.' ∈ text → String.ofList ((stem text).map Char.toUpper) ∉ windowsReserved)

variable {name : String}

theorem allowed_iff (c : Char) :
    allowedCharacter c = true ↔ asciiLetterOrDigit c = true ∨ c = '_' ∨ c = '-' ∨ c = '.' := by
  simp only [allowedCharacter, Bool.or_eq_true, decide_eq_true_eq]
  tauto

theorem not_allowed_newline : allowedCharacter '\n' = false := by decide

/-! ## The character check -/

theorem allowedMatch_plain {text : List Char} (plain : text.getLast? ≠ some '\n') :
    allowedMatch text = true ↔ text ≠ [] ∧ ∀ c ∈ text, allowedCharacter c = true := by
  unfold allowedMatch
  rw [if_neg plain]
  simp

theorem allowedMatch_newline (text : List Char) :
    allowedMatch (text ++ ['\n']) = true ↔ text ≠ [] ∧ ∀ c ∈ text, allowedCharacter c = true := by
  unfold allowedMatch
  rw [if_pos (by simp)]
  simp

theorem stem_plain {text : List Char} (noDot : '.' ∉ text) : stem text = text := by
  apply List.takeWhile_eq_self_iff.mpr
  intro c member
  apply decide_eq_true
  rintro rfl
  exact noDot member

theorem stem_append {text : List Char} (dot : '.' ∈ text) (rest : List Char) :
    stem (text ++ rest) = stem text := by
  induction text with
  | nil => cases dot
  | cons c text ih =>
    by_cases here : c = '.'
    · simp [stem, here]
    · have later : '.' ∈ text := (List.mem_cons.mp dot).resolve_left fun same => here same.symm
      have kept : stem (c :: text) = c :: stem text := by simp [stem, here]
      have same : stem (c :: (text ++ rest)) = c :: stem (text ++ rest) := by simp [stem, here]
      rw [List.cons_append, same, kept, ih later]

theorem not_reserved_newline (text : List Char) :
    String.ofList ((text ++ ['\n']).map Char.toUpper) ∉ windowsReserved := by
  intro reserved
  have noNewline : ∀ device ∈ windowsReserved, '\n' ∉ device.toList := by decide +kernel
  apply noNewline _ reserved
  rw [String.toList_ofList, List.map_append]
  exact List.mem_append_right _ List.mem_cons_self

theorem reserved_newline (text : List Char) :
    String.ofList ((stem (text ++ ['\n'])).map Char.toUpper) ∉ windowsReserved ↔
      ('.' ∈ text → String.ofList ((stem text).map Char.toUpper) ∉ windowsReserved) := by
  by_cases dot : '.' ∈ text
  · rw [stem_append dot]
    exact ⟨fun free _ => free, fun free => free dot⟩
  · have noDot : '.' ∉ text ++ ['\n'] := by simp [dot]
    rw [stem_plain noDot]
    exact iff_of_true (not_reserved_newline text) fun member => absurd member dot

/-! ## The accepted names -/

theorem validate_iff (name : String) :
    validateScriptName name = .ok name ↔
      name ≠ "" ∧ name.length ≤ 100 ∧ allowedMatch name.toList = true ∧
        ¬ name.toList.all (· = '.') = true ∧ name.toList.getLast? ≠ some '.' ∧
          String.ofList ((stem name.toList).map Char.toUpper) ∉ windowsReserved := by
  unfold validateScriptName
  constructor
  · intro accepted
    split_ifs at accepted with empty long illegal dots dot device
    exact ⟨empty, not_lt.mp long, by simpa using illegal, dots, dot, device⟩
  · intro passes
    obtain ⟨nonempty, short, legal, notDots, noDot, free⟩ := passes
    have fits : ¬ name.length > maxScriptNameLength := not_lt.mpr short
    rw [if_neg nonempty, if_neg fits, if_neg (by simp [legal]), if_neg notDots, if_neg noDot,
      if_neg free]

theorem nonempty_iff (name : String) : name ≠ "" ↔ name.toList ≠ [] := by simp

theorem accepted_iff (name : String) :
    validateScriptName name = .ok name ↔ ScriptName name ∨ Trailing name := by
  rw [validate_iff, nonempty_iff]
  -- the pattern and the grammar differ at a last newline only
  by_cases newline : name.toList.getLast? = some '\n'
  · obtain ⟨text, split⟩ := List.getLast?_eq_some_iff.mp newline
    have length : name.length = text.length + 1 := by
      rw [← String.length_toList, split, List.length_append]
      rfl
    have notGrammar : ¬ ScriptName name := by
      intro grammar
      have allowed := grammar.plain '\n' (by simp [split])
      rw [← allowed_iff, not_allowed_newline] at allowed
      cases allowed
    have notDots : ¬ (text ++ ['\n']).all (· = '.') = true := by simp
    have ends : (text ++ ['\n']).getLast? ≠ some '.' := by simp
    rw [split, allowedMatch_newline, reserved_newline]
    constructor
    · intro passes
      obtain ⟨_, short, ⟨some, plain⟩, _, _, free⟩ := passes
      exact .inr ⟨text, split, some, by omega, plain, free⟩
    · intro either
      obtain ⟨other, same, some, short, plain, free⟩ := either.resolve_left notGrammar
      rw [split] at same
      obtain rfl := (List.append_inj' same rfl).1
      exact ⟨by simp, by omega, ⟨some, plain⟩, notDots, ends, free⟩
  · rw [allowedMatch_plain newline]
    constructor
    · intro passes
      obtain ⟨some, short, ⟨_, plain⟩, notDots, ends, free⟩ := passes
      left
      constructor
      · rw [← String.length_toList]
        exact List.length_pos_iff.mpr some
      · exact short
      · exact fun c member => (allowed_iff c).mp (plain c member)
      · simpa using notDots
      · exact ends
      · exact free
    · intro either
      rcases either with grammar | ⟨text, split, _⟩
      · obtain ⟨c, member, notDot⟩ := grammar.notDots
        have some : name.toList ≠ [] := List.ne_nil_of_mem member
        refine ⟨some, grammar.short, ⟨some, ?_⟩, ?_, grammar.ends, grammar.device⟩
        · exact fun c member => (allowed_iff c).mpr (grammar.plain c member)
        · simpa using grammar.notDots
      · exact absurd (by simp [split]) newline

/-! ## Where accepted names lead -/

theorem separates_allowed {c : Char} (host : Host) (allowed : allowedCharacter c = true ∨ c = '\n') :
    host.separates c = false ∧ c ≠ ':' := by
  have marks : allowedCharacter '/' = false ∧ allowedCharacter '\\' = false ∧ allowedCharacter ':' = false := by
    decide
  have apart (mark : Char) (notAllowed : allowedCharacter mark = false) (notNewline : mark ≠ '\n') : c ≠ mark := by
    rintro rfl
    rcases allowed with allowed | newline
    · rw [notAllowed] at allowed
      cases allowed
    · exact notNewline newline
  constructor
  · simp [Host.separates, apart '/' marks.1 (by decide), apart '\\' marks.2.1 (by decide)]
  · exact apart ':' marks.2.2 (by decide)

theorem accepted_directlyIn (accepted : validateScriptName name = .ok name) (host : Host) (directory : Location) :
    host.DirectlyIn directory (host.join directory name) := by
  obtain ⟨nonempty, _, legal, _, ends, _⟩ := (validate_iff name).mp accepted
  have characters : ∀ c ∈ name.toList, allowedCharacter c = true ∨ c = '\n' := by
    by_cases newline : name.toList.getLast? = some '\n'
    · obtain ⟨text, split⟩ := List.getLast?_eq_some_iff.mp newline
      rw [split, allowedMatch_newline] at legal
      intro c member
      rw [split] at member
      rcases List.mem_append.mp member with inside | last
      · exact .inl (legal.2 c inside)
      · exact .inr (List.mem_singleton.mp last)
    · exact fun c member => .inl (((allowedMatch_plain newline).mp legal).2 c member)
  apply Host.directlyIn_plain
  · refine ⟨(nonempty_iff name).mp nonempty, ?_, ?_⟩
    · intro dot
      rw [dot] at ends
      exact ends rfl
    · intro dots
      rw [dots] at ends
      exact ends rfl
  · exact fun c member => (separates_allowed host (characters c member)).1
  · exact fun colon => (separates_allowed host (characters ':' colon)).2 rfl

/-- The check agrees with the grammar on every text but those with a newline after them that it
lets through. -/
theorem guards_iff (name : String) : Guards name ↔ ¬ Trailing name := by
  have leads := fun accepted => @accepted_directlyIn name accepted
  unfold Guards
  rw [and_iff_left leads, accepted_iff]
  constructor
  · intro agrees trailing
    obtain ⟨text, split, _⟩ := id trailing
    have grammar := agrees.mp (.inr trailing)
    have allowed := grammar.plain '\n' (by simp [split])
    rw [← allowed_iff, not_allowed_newline] at allowed
    cases allowed
  · exact fun clean => or_iff_left clean

theorem newline_is_accepted : ¬ Guards "deploy\n" := by
  intro guards
  have accepted : validateScriptName "deploy\n" = .ok "deploy\n" := by decide +kernel
  have plain := (guards.1.mp accepted).plain '\n' (by decide)
  exact absurd plain (by decide)

end Csl.Agent.ScriptNames
