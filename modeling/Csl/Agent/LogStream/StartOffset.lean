import Csl.Agent.LogStream

/-! The backward scan for the last lines of a log against splitting the whole log. -/

set_option autoImplicit false

namespace Csl.Agent.LogStream
open Lines

theorem scanBuffer_through {tailLines : Nat} {buf : Bytes} {scanLen newlines counted : Nat}
    (ended : scanBuffer tailLines buf scanLen newlines = .through counted) (few : newlines < tailLines) :
    counted = newlines + (buf.take scanLen).count newline ∧ counted < tailLines := by
  induction scanLen generalizing newlines with
  | zero =>
    cases ended
    exact ⟨rfl, few⟩
  | succ i ih =>
    rw [scanBuffer] at ended
    rw [List.take_add_one, List.count_append]
    by_cases here : buf[i]? = some newline
    · rw [if_pos here] at ended
      by_cases last : newlines + 1 = tailLines
      · rw [if_pos last] at ended
        cases ended
      · rw [if_neg last] at ended
        have counts := ih ended (by omega)
        rw [here, Option.toList_some, List.count_singleton_self]
        omega
    · rw [if_neg here] at ended
      have counts := ih ended few
      have none : (buf[i]?.toList).count newline = 0 := by
        apply List.count_eq_zero_of_not_mem
        intro member
        exact here (Option.mem_toList.mp member)
      omega

theorem scanBuffer_boundary {tailLines : Nat} {buf : Bytes} {scanLen newlines i : Nat}
    (ended : scanBuffer tailLines buf scanLen newlines = .boundary i) (inside : scanLen ≤ buf.length) :
    i < scanLen ∧ buf[i]? = some newline ∧
      newlines + ((buf.take scanLen).drop (i + 1)).count newline + 1 = tailLines := by
  induction scanLen generalizing newlines with
  | zero => cases ended
  | succ j ih =>
    rw [scanBuffer] at ended
    by_cases here : buf[j]? = some newline
    · rw [if_pos here] at ended
      by_cases last : newlines + 1 = tailLines
      · rw [if_pos last] at ended
        cases ended
        have nothing : (buf.take (i + 1)).drop (i + 1) = [] := by simp
        rw [nothing]
        exact ⟨Nat.lt_succ_self i, here, last⟩
      · rw [if_neg last] at ended
        obtain ⟨earlier, found, counts⟩ := ih ended (by omega)
        refine ⟨by omega, found, ?_⟩
        rw [List.take_add_one, here, List.drop_append_of_le_length (by rw [List.length_take]; omega), List.count_append,
          Option.toList_some, List.count_singleton_self]
        omega
    · rw [if_neg here] at ended
      obtain ⟨earlier, found, counts⟩ := ih ended (by omega)
      refine ⟨by omega, found, ?_⟩
      have none : (buf[j]?.toList).count newline = 0 := by
        apply List.count_eq_zero_of_not_mem
        intro member
        exact here (Option.mem_toList.mp member)
      rw [List.take_add_one, List.drop_append_of_le_length (by rw [List.length_take]; omega), List.count_append, none]
      exact counts

/-- Where the scan of `body` may stop: at its start, having met too few newlines, or behind the
newline that is the last but `tailLines - 1`. -/
inductive Boundary (tailLines : Nat) (body : Bytes) : Nat → Prop
  | start (few : body.count newline < tailLines) : Boundary tailLines body 0
  | behind {before : Nat} (ends : body[before]? = some newline)
      (counts : (body.drop (before + 1)).count newline + 1 = tailLines) : Boundary tailLines body (before + 1)

theorem scanBack_chunk (chunk : ℕ+) (tailLines newlines : Nat) {stop pos : Nat} {f : BinaryFile}
    (inside : stop ≤ f.content.length) (below : pos ≤ stop) (more : 0 < pos) :
    ∃ start buf f', start < pos ∧ f'.content = f.content ∧ f'.reads = f.reads ++ [(start, pos - start)] ∧
      (f.content.take stop).drop start = buf ++ (f.content.take stop).drop pos ∧
      scanBack chunk tailLines stop f pos newlines =
        match scanBuffer tailLines buf buf.length newlines with
        | .boundary i => (start + i + 1, f')
        | .through newlines => scanBack chunk tailLines stop f' start newlines := by
  let start := pos - min chunk.val pos
  let buf := (f.content.drop start).take (min chunk.val pos)
  have earlier : start < pos := Nat.sub_lt more (lt_min chunk.property more)
  have size : min chunk.val pos = pos - start := by
    have smaller := min_le_right chunk.val pos
    omega
  have length : buf.length = pos - start := by
    rw [List.length_take, List.length_drop, size]
    exact min_eq_left (by omega)
  have window : buf = ((f.content.take stop).drop start).take (pos - start) := by
    rw [List.drop_take, List.take_take, min_eq_left (by omega), ← size]
  refine ⟨start, buf, ((f.seek start).read (min chunk.val pos)).2, earlier, rfl, ?_, ?_, ?_⟩
  · rw [← size]
    rfl
  · rw [window]
    conv_lhs => rw [← List.take_append_drop (pos - start) ((f.content.take stop).drop start)]
    rw [List.drop_drop, Nat.add_sub_cancel' (Nat.le_of_lt earlier)]
  · have scanned : min buf.length (stop - start) = buf.length := min_eq_left (by omega)
    rw [scanBack, dif_pos more]
    change (match scanBuffer tailLines buf (min buf.length (stop - start)) newlines with
      | .boundary i => (start + i + 1, _)
      | .through newlines => scanBack chunk tailLines stop _ start newlines) = _
    rw [scanned]
    rfl

theorem scanBack_boundary (chunk : ℕ+) {tailLines stop pos newlines : Nat} {f : BinaryFile}
    (inside : stop ≤ f.content.length) (below : pos ≤ stop)
    (counted : ((f.content.take stop).drop pos).count newline = newlines) (few : newlines < tailLines) :
    Boundary tailLines (f.content.take stop) (scanBack chunk tailLines stop f pos newlines).1 := by
  induction pos using Nat.strong_induction_on generalizing f newlines with
  | _ pos ih =>
    by_cases more : 0 < pos
    · obtain ⟨start, buf, f', earlier, same, -, split, scanned⟩ :=
        scanBack_chunk chunk tailLines newlines inside below more
      rw [scanned]
      cases ended : scanBuffer tailLines buf buf.length newlines with
      -- the last newline that counts is in this chunk
      | boundary i =>
        obtain ⟨before, ends, counts⟩ := scanBuffer_boundary ended (Nat.le_refl _)
        rw [List.take_length] at counts
        have found : (f.content.take stop)[start + i]? = some newline := by
          rw [← List.getElem?_drop, split, List.getElem?_append_left before, ends]
        have left : (f.content.take stop).drop (start + i + 1) =
            buf.drop (i + 1) ++ (f.content.take stop).drop pos := by
          rw [Nat.add_assoc, ← List.drop_drop, split, List.drop_append_of_le_length before]
        apply Boundary.behind found
        rw [left, List.count_append, counted]
        omega
      | through more =>
        -- all newlines of the chunk are counted, and the scan goes on before it
        obtain ⟨counts, fewer⟩ := scanBuffer_through ended few
        rw [List.take_length] at counts
        rw [← same]
        apply ih start earlier
        · rw [same]
          exact inside
        · omega
        · rw [same, split, List.count_append, counted]
          omega
        · exact fewer
    · have first : pos = 0 := by omega
      subst first
      rw [scanBack, dif_neg more]
      exact Boundary.start (by rw [List.drop_zero] at counted; omega)

/-- The scan reads nothing behind `stop`. -/
theorem scanBack_reads (chunk : ℕ+) {tailLines stop pos newlines : Nat} {f : BinaryFile}
    (inside : stop ≤ f.content.length) (below : pos ≤ stop) (within : ∀ range ∈ f.reads, range.1 + range.2 ≤ f.content.length) :
    ∀ range ∈ (scanBack chunk tailLines stop f pos newlines).2.reads, range.1 + range.2 ≤ f.content.length := by
  induction pos using Nat.strong_induction_on generalizing f newlines with
  | _ pos ih =>
    by_cases more : 0 < pos
    · obtain ⟨start, buf, f', earlier, same, read, -, scanned⟩ :=
        scanBack_chunk chunk tailLines newlines inside below more
      have kept : ∀ range ∈ f'.reads, range.1 + range.2 ≤ f'.content.length := by
        intro range member
        rw [read] at member
        rw [same]
        rcases List.mem_append.mp member with old | new
        · exact within range old
        · rw [List.mem_singleton.mp new]
          dsimp only
          omega
      rw [scanned]
      cases scanBuffer tailLines buf buf.length newlines with
      | boundary i =>
        rw [← same]
        exact kept
      | through more =>
        rw [← same]
        apply ih start earlier
        · rw [same]
          exact inside
        · omega
        · exact kept
    · rw [scanBack, dif_neg more]
      exact within

inductive Trimmed : Bytes → Bytes → Prop
  | ended (body : Bytes) : Trimmed (body ++ [newline]) body
  | unfinished {content : Bytes} (cut : ¬ Whole newline content) : Trimmed content content

theorem Trimmed.length_lines {content body : Bytes} (trimmed : Trimmed content body) :
    (lines newline content).length = body.count newline + 1 := by
  cases trimmed with
  | ended =>
    have whole : Whole newline (body ++ [newline]) :=
      (whole_append _ (List.cons_ne_nil _ _)).mpr ((whole_singleton _).mpr rfl)
    rw [Lines.length_lines, if_pos whole, List.count_append, List.count_singleton_self]
  | unfinished cut => rw [Lines.length_lines, if_neg cut]

theorem Trimmed.drop {content body : Bytes} {before : Nat} (trimmed : Trimmed content body)
    (ends : body[before]? = some newline) : Trimmed (content.drop (before + 1)) (body.drop (before + 1)) := by
  obtain ⟨inside, last⟩ := List.getElem?_eq_some_iff.mp ends
  cases trimmed with
  | ended =>
    rw [List.drop_append_of_le_length inside]
    exact Trimmed.ended _
  | unfinished cut =>
    apply Trimmed.unfinished
    intro whole
    apply cut
    -- A newline at the very end would finish the text.
    by_cases rest : content.drop (before + 1) = []
    · have full : content.length = before + 1 := by
        have short := List.drop_eq_nil_iff.mp rest
        omega
      right
      rw [List.getLast?_eq_getElem?, full]
      exact ends
    · rw [← List.take_append_drop (before + 1) content]
      exact (whole_append _ rest).mpr whole

theorem Boundary.behind_newline {tailLines offset : Nat} {content body : Bytes} (trimmed : Trimmed content body)
    (boundary : Boundary tailLines body offset) :
    offset = 0 ∨ ∃ before, offset = before + 1 ∧ content[before]? = some newline := by
  cases boundary with
  | start few => exact Or.inl rfl
  | @behind before ends counts =>
    right
    use before, rfl
    obtain ⟨inside, -⟩ := List.getElem?_eq_some_iff.mp ends
    cases trimmed with
    | ended => rw [List.getElem?_append_left inside, ends]
    | unfinished cut => exact ends

theorem Boundary.whole_take {tailLines offset : Nat} {content body : Bytes} (trimmed : Trimmed content body)
    (boundary : Boundary tailLines body offset) : Whole newline (content.take offset) := by
  rcases boundary.behind_newline trimmed with first | ⟨before, here, found⟩
  · rw [first]
    exact Or.inl List.take_zero
  · right
    rw [here, List.take_add_one, found]
    exact List.getLast?_concat

theorem Boundary.le_length {tailLines offset : Nat} {content body : Bytes} (trimmed : Trimmed content body)
    (boundary : Boundary tailLines body offset) : offset ≤ content.length := by
  rcases boundary.behind_newline trimmed with first | ⟨before, here, found⟩
  · rw [first]
    exact Nat.zero_le _
  · rw [here]
    exact (List.getElem?_eq_some_iff.mp found).1

theorem Boundary.length_lines {tailLines offset : Nat} {content body : Bytes} (trimmed : Trimmed content body)
    (boundary : Boundary tailLines body offset) :
    (lines newline (content.drop offset)).length = min tailLines (lines newline content).length := by
  have all := trimmed.length_lines
  cases boundary with
  | start few =>
    rw [List.drop_zero, all]
    omega
  | @behind before ends counts =>
    obtain ⟨inside, -⟩ := List.getElem?_eq_some_iff.mp ends
    have split := congrArg (List.count newline) (List.take_append_drop (before + 1) body)
    rw [List.count_append] at split
    have left := (trimmed.drop ends).length_lines
    rw [left, all]
    omega

/-- The suffix from the boundary is the last lines, and what is before it the other ones. -/
theorem Boundary.eq_length {tailLines offset : Nat} {content body : Bytes} (trimmed : Trimmed content body)
    (boundary : Boundary tailLines body offset) :
    offset = ((lines newline content).take ((lines newline content).length - tailLines)).flatten.length := by
  have suffix := boundary.length_lines trimmed
  have split := lines_append (boundary.whole_take trimmed) (content.drop offset)
  rw [List.take_append_drop] at split
  have count := congrArg List.length split
  rw [List.length_append, suffix] at count
  have before : (lines newline content).take ((lines newline content).length - tailLines) =
      lines newline (content.take offset) := by
    have number : (lines newline content).length - tailLines = (lines newline (content.take offset)).length := by omega
    rw [number]
    conv_lhs => rw [split]
    exact List.take_left
  rw [before, flatten_lines, List.length_take, min_eq_left (boundary.le_length trimmed)]

theorem trimmed_effectiveEnd {content : Bytes} (nonempty : content ≠ []) :
    Trimmed content (content.take (if (content.drop (content.length - 1)).take 1 = [newline]
      then content.length - 1 else content.length)) := by
  have last : (content.drop (content.length - 1)).take 1 = content.getLast?.toList := by
    rw [List.take_one, List.head?_drop, List.getLast?_eq_getElem?]
  rw [last]
  by_cases ends : content.getLast? = some newline
  · have front : content.dropLast ++ [newline] = content := by
      rw [List.dropLast_append_getLast? newline ends]
    have same : content.getLast?.toList = [newline] := by rw [ends, Option.toList_some]
    rw [if_pos same, ← List.dropLast_eq_take]
    conv => arg 1; rw [← front]
    exact Trimmed.ended _
  · have other : ¬ content.getLast?.toList = [newline] := by
      intro same
      exact ends (Option.mem_toList.mp (same ▸ List.mem_singleton_self newline))
    rw [if_neg other, List.take_length]
    apply Trimmed.unfinished
    rintro (empty | whole)
    · exact nonempty empty
    · exact ends whole

/-- What `_tail_start_offset` begins to scan, having looked at the last byte. -/
theorem tailStartOffset_eq (chunk : ℕ+) (tailLines : Nat) {content : Bytes} (nonempty : content ≠ []) :
    ∃ stop f, stop ≤ content.length ∧ f.content = content ∧ f.reads = [(content.length - 1, 1)] ∧
      Trimmed content (content.take stop) ∧
      tailStartOffset chunk tailLines content content = scanBack chunk tailLines stop f stop 0 := by
  let f : BinaryFile := ({ content := content, position := content.length - 1 } : BinaryFile).read 1 |>.2
  let stop := if (content.drop (content.length - 1)).take 1 = [newline] then content.length - 1 else content.length
  have size : (BinaryFile.seekEnd { content := content } 0).position ≠ 0 :=
    fun empty => nonempty (List.length_eq_zero_iff.mp empty)
  have inside : stop ≤ content.length := by
    change (if _ then _ else _) ≤ _
    split
    · exact Nat.sub_le _ _
    · exact Nat.le_refl _
  refine ⟨stop, f, inside, rfl, rfl, trimmed_effectiveEnd nonempty, ?_⟩
  rw [tailStartOffset, if_neg size]
  rfl

/-- The backward scan finds the last `tailLines` lines, as splitting the whole log would, and reads
only inside the file. -/
theorem tail_start_offset_is_exact (chunk : ℕ+) (content : Bytes) (tailLines : Nat) (positive : 0 < tailLines) :
    let offset := (tailStartOffset chunk tailLines content content).1
    (offset = 0 ∨ ∃ before, offset = before + 1 ∧ content[before]? = some newline) ∧
      (lines newline (content.drop offset)).length = min tailLines (lines newline content).length ∧
      offset = ((lines newline content).take ((lines newline content).length - tailLines)).flatten.length ∧
      ∀ range ∈ (tailStartOffset chunk tailLines content content).2.reads, range.1 + range.2 ≤ content.length := by
  intro offset
  by_cases empty : content = []
  · subst empty
    refine ⟨Or.inl rfl, ?_, ?_, ?_⟩
    · rw [List.drop_nil]
      exact (Nat.min_zero tailLines).symm
    · rw [lines, List.take_nil]
      rfl
    · intro range member
      cases member
  · obtain ⟨stop, f, inside, same, read, trimmed, scanned⟩ := tailStartOffset_eq chunk tailLines empty
    have boundary : Boundary tailLines (content.take stop) offset := by
      change Boundary _ _ (tailStartOffset chunk tailLines content content).1
      rw [scanned, ← same]
      apply scanBack_boundary chunk (same ▸ inside) (Nat.le_refl stop)
      · rw [List.drop_eq_nil_of_le (List.length_take_le _ _)]
        rfl
      · exact positive
    refine ⟨boundary.behind_newline trimmed, boundary.length_lines trimmed, boundary.eq_length trimmed, ?_⟩
    rw [scanned, ← same]
    apply scanBack_reads chunk (same ▸ inside) (Nat.le_refl stop)
    intro range member
    rw [read] at member
    rw [List.mem_singleton.mp member, same]
    have length := List.length_pos_iff.mpr empty
    dsimp only
    omega

theorem tail_start_offset_is_exact_across_chunks :
    0 < 2 ∧ (lines newline ([97, 10, 98, 98, 98, 10, 99, 10].drop
      (tailStartOffset ⟨3, by decide⟩ 2 [97, 10, 98, 98, 98, 10, 99, 10] [97, 10, 98, 98, 98, 10, 99, 10]).1)).length = 2 :=
  ⟨by decide, (tail_start_offset_is_exact ⟨3, by decide⟩ [97, 10, 98, 98, 98, 10, 99, 10] 2 (by decide)).2.1⟩

end Csl.Agent.LogStream
