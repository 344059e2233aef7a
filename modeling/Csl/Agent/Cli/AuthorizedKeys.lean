import Csl.Library.TextLines
import Csl.Library.Words

/-! The entry of the control-station key in authorized_keys.

The file is read and split as text, the entries of the key are taken out, and the
restricted entry is written after what is left. sshd splits the file at its
newlines only, so a line it sees as one may have been rewritten as several.
-/

set_option autoImplicit false

namespace Csl.Agent.AuthorizedKeys
open LineBreaks Newlines TextLines Words

/-- A public key as the key file holds it: its second word identifies the key. -/
structure PublicKey where
  publicOpenssh : List Char
  keyBody : List Char
  second : (words publicOpenssh)[1]? = some keyBody

/-- Where the agent is installed: what `shutil.which` finds, and how text mode ends lines. -/
structure Site where
  which : Option (List Char)
  isWindows : Bool

inductive Content where
  | missing
  | text (stored : List Char)
  | undecodable
  deriving DecidableEq

/-- The text there was before; a file that is missing holds no line. -/
def Content.text? : Content → Option (List Char)
  | .missing => some []
  | .text stored => some stored
  | .undecodable => none

variable (site : Site) (key : PublicKey) (agentPort : Int)

def forcedCommand : List Char :=
  site.which.getD "csl-agent".toList ++ " ssh-gateway".toList

def buildAuthorizedKeysEntry : List Char :=
  let pubLine := Whitespace.stripList key.publicOpenssh
  let options := "command=\"".toList ++ forcedCommand site ++ "\",restrict,port-forwarding,".toList ++
    "permitopen=\"127.0.0.1:".toList ++ (toString agentPort).toList ++ "\"".toList
  options ++ " ".toList ++ pubLine

def keptLines (text : List Char) : List (List Char) :=
  (splitlines (universalList text)).filter (fun line => !contains key.keyBody line)

/-- `_append_authorized_keys`: the file it leaves, unless the text cannot be decoded. -/
def appendAuthorizedKeys (content : Content) : Option Content :=
  match content.text? with
  | none => none
  | some text =>
    let kept := keptLines key text ++ [buildAuthorizedKeysEntry site key agentPort]
    let written := (kept.intersperse ['\n']).flatten ++ ['\n']
    some (.text (if site.isWindows then crlfList written else written))

/-! ## The entry -/

/-- What text mode writes before a newline. -/
def mark : List Char := if site.isWindows then ['\r'] else []

theorem mark_either : mark site = [] ∨ mark site = ['\r'] := by
  rw [mark]
  split_ifs
  · exact Or.inr rfl
  · exact Or.inl rfl

theorem newline_not_mem_mark : '\n' ∉ mark site := by
  rcases mark_either site with none | return_
  · simp [none]
  · simp [return_]

theorem isSpace_of_isLineBreak {c : Char} (breaks : isLineBreak c = true) : Whitespace.isSpace c = true := by
  simp only [isLineBreak, List.mem_cons, List.not_mem_nil, or_false, decide_eq_true_eq] at breaks
  simp only [Whitespace.isSpace, Bool.or_eq_true, Bool.and_eq_true, decide_eq_true_eq]
  omega

theorem keyBody_spec : key.keyBody <:+: key.publicOpenssh ∧ key.keyBody ≠ [] ∧
    ∀ c ∈ key.keyBody, Whitespace.isSpace c = false :=
  words_spec (List.mem_of_getElem? key.second)

theorem keyBody_unbroken {c : Char} (breaks : isLineBreak c = true) : c ∉ key.keyBody := by
  intro member
  have solid := (keyBody_spec key).2.2 c member
  rw [isSpace_of_isLineBreak breaks] at solid
  cases solid

theorem entry_ends : ∃ options, buildAuthorizedKeysEntry site key agentPort =
    options ++ Whitespace.stripList key.publicOpenssh := ⟨_, rfl⟩

theorem contains_entry : contains key.keyBody (buildAuthorizedKeysEntry site key agentPort) = true := by
  obtain ⟨inside, some, solid⟩ := keyBody_spec key
  obtain ⟨options, entry⟩ := entry_ends site key agentPort
  rw [contains_iff, entry]
  exact List.infix_append_of_infix_right (infix_stripList some solid inside)

theorem contains_marked (line : List Char) :
    contains key.keyBody (line ++ mark site) = contains key.keyBody line := by
  rcases mark_either site with none | return_
  · rw [none, List.append_nil]
  · rw [return_]
    exact contains_concat (keyBody_unbroken key (c := '\r') rfl) line

theorem getLast_entry : (buildAuthorizedKeysEntry site key agentPort).getLast? ≠ some '\r' := by
  obtain ⟨inside, some, solid⟩ := keyBody_spec key
  have nonempty : Whitespace.stripList key.publicOpenssh ≠ [] := by
    intro empty
    have kept := infix_stripList some solid inside
    rw [empty, List.infix_nil] at kept
    exact some kept
  obtain ⟨options, entry⟩ := entry_ends site key agentPort
  intro last
  rw [entry, List.getLast?_append_of_ne_nil _ nonempty] at last
  cases Whitespace.getLast_stripList last

/-! ## The lines that are kept -/

theorem mem_keptLines {text line : List Char} (member : line ∈ keptLines key text) :
    contains key.keyBody line = false ∧ ∀ c ∈ line, isLineBreak c = false := by
  obtain ⟨split, foreign⟩ := List.mem_filter.mp member
  exact ⟨by simpa using foreign, plain_of_mem_splitlines split⟩

/-- A line that reading and writing the file leaves as it is. -/
def Unbroken (line : List Char) : Prop :=
  ∃ core, line = core ++ mark site ∧ ∀ c ∈ core, isLineBreak c = false

def foreignLines (text : List Char) : List (List Char) :=
  (rawLines text).filter (fun line => !contains key.keyBody line)

/-- An unbroken line is kept, with its end as text mode writes it. -/
theorem foreign_sublist {text : List Char} (unbroken : ∀ line ∈ foreignLines key text, Unbroken site line) :
    (foreignLines key text).Sublist ((keptLines key text).map (· ++ mark site)) := by
  have alone : ∀ line ∈ Lines.lines '\n' text, contains key.keyBody (chomp line) = false →
      ∃ core, chomp line = core ++ mark site ∧ splitlines line = [core] := by
    intro line member foreign
    have seen : chomp line ∈ foreignLines key text :=
      List.mem_filter.mpr ⟨List.mem_map_of_mem member, by simp [foreign]⟩
    obtain ⟨core, content, plain⟩ := unbroken (chomp line) seen
    exact ⟨core, content, splitlines_stored member (mark_either site) content plain⟩
  rw [foreignLines, rawLines, keptLines, splitlines_universalList, splitlines_eq_flatMap]
  generalize Lines.lines '\n' text = stored at alone
  induction stored with
  | nil => exact List.Sublist.refl _
  | cons line rest ih =>
    have tail := ih (fun later member => alone later (List.mem_cons_of_mem line member))
    rw [List.map_cons, List.flatMap_cons, List.filter_append, List.map_append]
    by_cases foreign : contains key.keyBody (chomp line) = false
    · obtain ⟨core, content, split⟩ := alone line List.mem_cons_self foreign
      have kept : contains key.keyBody core = false := by
        rw [← contains_marked site key, ← content, foreign]
      rw [List.filter_cons_of_pos (by simp [foreign]), split, List.filter_cons_of_pos (by simp [kept]), content]
      exact tail.cons_cons _
    · rw [List.filter_cons_of_neg (by simpa using foreign)]
      exact tail.trans (List.sublist_append_right _ _)

/-! ## What is written -/

def OneLine : Prop :=
  '\n' ∉ buildAuthorizedKeysEntry site key agentPort ∧
    ∀ piece ∈ pieces isLineBreak (buildAuthorizedKeysEntry site key agentPort), contains key.keyBody piece = true

def newLines (text : List Char) : List (List Char) :=
  keptLines key text ++ [buildAuthorizedKeysEntry site key agentPort]

theorem newline_not_mem_kept {text line : List Char} (member : line ∈ keptLines key text) : '\n' ∉ line := by
  intro inside
  cases (mem_keptLines key member).2 '\n' inside

theorem append_text (text : List Char) : appendAuthorizedKeys site key agentPort (.text text) =
    some (.text (if site.isWindows then crlfList (unlines ['\n'] (newLines site key agentPort text))
      else unlines ['\n'] (newLines site key agentPort text))) := by
  have some_ : newLines site key agentPort text ≠ [] := List.append_ne_nil_of_right_ne_nil _ (List.cons_ne_nil _ _)
  have joined := flatten_intersperse some_
  rw [← joined]
  rfl

theorem append_one_line {text : List Char} (one : '\n' ∉ buildAuthorizedKeysEntry site key agentPort) :
    appendAuthorizedKeys site key agentPort (.text text) =
      some (.text (unlines (mark site ++ ['\n']) (newLines site key agentPort text))) := by
  have plain : ∀ line ∈ newLines site key agentPort text, '\n' ∉ line := by
    intro line member
    rcases List.mem_append.mp member with kept | entry
    · exact newline_not_mem_kept key kept
    · rw [List.mem_singleton.mp entry]
      exact one
  rw [append_text, mark]
  split_ifs
  · rw [crlfList_unlines plain]
    rfl
  · rfl

/-! ## Reading it again -/

theorem rawLines_after (text : List Char) (one : '\n' ∉ buildAuthorizedKeysEntry site key agentPort) :
    rawLines (unlines (mark site ++ ['\n']) (newLines site key agentPort text)) =
      (newLines site key agentPort text).map (· ++ mark site) := by
  apply rawLines_unlines
  · intro line member
    rcases List.mem_append.mp member with kept | entry
    · exact newline_not_mem_kept key kept
    · rw [List.mem_singleton.mp entry]
      exact one
  · exact newline_not_mem_mark site

/-- Of its own entry, a second run keeps the pieces that do not hold the key. -/
theorem keptLines_after (text : List Char) :
    keptLines key (unlines (mark site ++ ['\n']) (newLines site key agentPort text)) = keptLines key text ++
      (pieces isLineBreak (buildAuthorizedKeysEntry site key agentPort)).filter
        (fun piece => !contains key.keyBody piece) := by
  have last : ∀ line ∈ newLines site key agentPort text, line.getLast? ≠ some '\r' := by
    intro line member
    rcases List.mem_append.mp member with kept | entry
    · intro ends
      cases (mem_keptLines key kept).2 '\r' (List.mem_of_getLast? ends)
    · rw [List.mem_singleton.mp entry]
      exact getLast_entry site key agentPort
  have whole : (keptLines key text).flatMap (pieces isLineBreak) = keptLines key text := by
    calc (keptLines key text).flatMap (pieces isLineBreak)
      _ = (keptLines key text).flatMap (fun line => [line]) :=
        List.flatMap_congr (fun line member => pieces_plain rfl (mem_keptLines key member).2)
      _ = keptLines key text := by simp
  have foreign : (keptLines key text).filter (fun line => !contains key.keyBody line) = keptLines key text :=
    List.filter_eq_self.mpr (fun line member => by simp [(mem_keptLines key member).1])
  rw [keptLines, splitlines_universalList, splitlines_unlines (mark_either site) last, newLines, List.flatMap_append,
    whole, List.filter_append, foreign, List.flatMap_singleton]

/-! ## Upgrading -/

/-- The file holds one line with the key, which is the restricted entry; the other lines are there as
they were and in their order; and a further run, for whichever port, leaves what it alone would have. -/
structure Upgraded (before after : List Char) : Prop where
  entry : (rawLines after).filter (contains key.keyBody) = [buildAuthorizedKeysEntry site key agentPort ++ mark site]
  foreign : (foreignLines key before).Sublist (rawLines after)
  again : ∀ port, appendAuthorizedKeys site key port (.text after) = appendAuthorizedKeys site key port (.text before)

def Upgrades (content : Content) : Prop :=
  ∃ before after, content.text? = some before ∧
    appendAuthorizedKeys site key agentPort content = some (.text after) ∧
    Upgraded site key agentPort before after

theorem append_content {content : Content} {before : List Char} (read : content.text? = some before) :
    appendAuthorizedKeys site key agentPort content = appendAuthorizedKeys site key agentPort (.text before) := by
  rw [appendAuthorizedKeys, read]
  rfl

variable {site key agentPort}

theorem upgraded {before : List Char} (unbroken : ∀ line ∈ foreignLines key before, Unbroken site line)
    (one : OneLine site key agentPort) :
    Upgraded site key agentPort before (unlines (mark site ++ ['\n']) (newLines site key agentPort before)) := by
  have stored := rawLines_after site key agentPort before one.1
  refine { entry := ?_, foreign := ?_, again := fun port => ?_ }
  · have none : (keptLines key before).filter (contains key.keyBody ∘ (· ++ mark site)) = [] := by
      rw [List.filter_eq_nil_iff]
      intro line member
      rw [Function.comp, contains_marked, (mem_keptLines key member).1]
      decide
    have holds : (contains key.keyBody ∘ (· ++ mark site)) (buildAuthorizedKeysEntry site key agentPort) = true := by
      rw [Function.comp, contains_marked, contains_entry]
    rw [stored, List.filter_map, newLines, List.filter_append, none, List.filter_cons_of_pos holds]
    rfl
  · rw [stored, newLines, List.map_append]
    exact (foreign_sublist site key unbroken).trans (List.sublist_append_left _ _)
  · have nothing : (pieces isLineBreak (buildAuthorizedKeysEntry site key agentPort)).filter
        (fun piece => !contains key.keyBody piece) = [] := by
      rw [List.filter_eq_nil_iff]
      intro piece member
      simp [one.2 piece member]
    have same := keptLines_after site key agentPort before
    rw [nothing, List.append_nil] at same
    have lines : newLines site key port (unlines (mark site ++ ['\n']) (newLines site key agentPort before)) =
        newLines site key port before := by
      rw [newLines, same, newLines]
    rw [append_text, append_text, lines]

theorem unbroken_of_upgraded {before after : List Char}
    (written : appendAuthorizedKeys site key agentPort (.text before) = some (.text after))
    (safe : Upgraded site key agentPort before after) :
    (∀ line ∈ foreignLines key before, Unbroken site line) ∧ OneLine site key agentPort := by
  -- an entry of several lines would not be the one line with the key
  have single : '\n' ∉ buildAuthorizedKeysEntry site key agentPort := by
    intro inside
    have member : buildAuthorizedKeysEntry site key agentPort ++ mark site ∈ rawLines after := by
      apply List.mem_of_mem_filter (p := contains key.keyBody)
      rw [safe.entry]
      exact List.mem_singleton_self _
    exact newline_not_mem_rawLines member (List.mem_append_left _ inside)
  rw [append_one_line site key agentPort single] at written
  have same : unlines (mark site ++ ['\n']) (newLines site key agentPort before) = after := by
    injection Option.some.inj written
  subst same
  refine ⟨fun line member => ?_, single, ?_⟩
  · have kept := safe.foreign.subset member
    rw [rawLines_after site key agentPort _ single] at kept
    obtain ⟨core, listed, content⟩ := List.mem_map.mp kept
    rcases List.mem_append.mp listed with old | entry
    · exact ⟨core, content.symm, (mem_keptLines key old).2⟩
    · -- the entry holds the key, and the line does not
      have foreign := (List.mem_filter.mp member).2
      rw [← content, List.mem_singleton.mp entry, contains_marked, contains_entry] at foreign
      cases foreign
  · intro piece member
    have again := safe.again agentPort
    rw [append_one_line site key agentPort single, append_one_line site key agentPort single] at again
    have texts := congrArg (Option.map (fun content => (Content.text? content).map rawLines)) again
    simp only [Option.map_some, Content.text?, Option.some.injEq, rawLines_after site key agentPort _ single] at texts
    -- a second run leaves as many lines, so no piece of the entry stands alone
    have lengths := congrArg List.length texts
    simp only [List.length_map, newLines, List.length_append] at lengths
    have longer := congrArg List.length (keptLines_after site key agentPort before)
    rw [List.length_append, newLines] at longer
    have none : ((pieces isLineBreak (buildAuthorizedKeysEntry site key agentPort)).filter
        (fun piece => !contains key.keyBody piece)).length = 0 := by omega
    have all := List.filter_eq_nil_iff.mp (List.length_eq_zero_iff.mp none) piece member
    simpa using all

variable (site key agentPort)

def agentKey : PublicKey where
  publicOpenssh := "ssh-ed25519 AAAAC3 csl-agent@host\n".toList
  keyBody := "AAAAC3".toList
  second := by decide +kernel

def posixSite : Site := ⟨none, false⟩

/-- A key whose comment holds a form feed: one line for sshd, two once the file was rewritten. -/
def foreignKey : List Char := "ssh-rsa BBBB ops\x0cteam".toList

end Csl.Agent.AuthorizedKeys
