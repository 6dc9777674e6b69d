import Mathlib.Data.List.Basic
import SchemaTypes.Proofs.Text.Blanks
import SchemaTypes.Text.Wrap

/-!
# What wrapping keeps

A paragraph is set in lines of a given width. Each line is a stretch of the paragraph
(`infix_of_mem_wrap`), no line is longer than the width (`length_le_of_mem_wrap`), and what shows of
the paragraph, all but its blanks, shows on the lines in the same order (`inked_wrap`). This follows
the filling of one line: it takes pieces that fit, and what it leaves weighs less than what it was
given, so there are always enough lines.
-/

namespace SchemaTypes.Text

/-! ## Plain blanks -/

theorem mem_expandTabs {c : Char} {column : Nat} {cs : List Char} (h : c ∈ expandTabs column cs) :
    c = ' ' ∨ c ∈ cs := by
  induction cs generalizing column with
  | nil => exact .inr h
  | cons d rest ih =>
    rw [expandTabs] at h
    by_cases htab : (d == '\t') = true
    · rw [if_pos htab] at h
      rcases List.mem_append.mp h with hblank | hrest
      · exact .inl (List.eq_of_mem_replicate hblank)
      · exact (ih hrest).imp_right (List.mem_cons_of_mem d)
    · rw [if_neg htab] at h
      rcases List.mem_cons.mp h with rfl | hrest
      · exact .inr List.mem_cons_self
      · exact (ih hrest).imp_right (List.mem_cons_of_mem d)

theorem mem_plainBlanks {c : Char} {cs : List Char} (h : c ∈ plainBlanks cs) :
    c = ' ' ∨ c ∈ cs := by
  obtain ⟨d, hd, rfl⟩ := List.mem_map.mp h
  by_cases hblank : isLineBlank d = true
  · exact .inl (if_pos hblank)
  · rw [if_neg hblank]
    exact mem_expandTabs hd

theorem isBlank_of_isLineBlank {c : Char} (h : isLineBlank c = true) : isBlank c = true := by
  simp only [isLineBlank, Bool.or_eq_true, beq_iff_eq] at h
  rcases h with ((((rfl | rfl) | rfl) | rfl) | rfl) | rfl <;> decide

theorem inked_expandTabs (column : Nat) (cs : List Char) :
    inked (expandTabs column cs) = inked cs := by
  induction cs generalizing column with
  | nil => rfl
  | cons c rest ih =>
    rw [expandTabs]
    split
    · next htab =>
      obtain rfl := beq_iff_eq.mp htab
      have hblanks : inked (List.replicate (8 - column % 8) ' ') = [] :=
        inked_eq_nil_iff.mpr fun c hc ↦ List.eq_of_mem_replicate hc ▸ by decide
      have htabs : inked ('\t' :: rest) = inked rest := inked_cons ..
      rw [inked_append, hblanks, List.nil_append, ih, htabs]
    · rw [inked_cons, inked_cons, ih]

/-- A paragraph with plain blanks shows the same. -/
theorem inked_plainBlanks (cs : List Char) : inked (plainBlanks cs) = inked cs := by
  rw [plainBlanks, ← inked_expandTabs 0 cs]
  induction expandTabs 0 cs with
  | nil => rfl
  | cons c rest ih =>
    rw [List.map_cons, inked_cons, inked_cons, ih]
    split
    · next hc =>
      have hspace : isBlank ' ' = true := by decide
      rw [hspace, isBlank_of_isLineBlank hc, if_pos rfl, if_pos rfl]
    · rfl

/-! ## One line -/

theorem takeFitting_append (room : Nat) (pieces : List (List Char)) :
    (takeFitting room pieces).1 ++ (takeFitting room pieces).2 = pieces := by
  induction pieces generalizing room with
  | nil => rfl
  | cons piece more ih =>
    rw [takeFitting]
    split
    · exact congrArg (piece :: ·) (ih _)
    · rfl

theorem length_takeFitting_le (room : Nat) (pieces : List (List Char)) :
    (takeFitting room pieces).1.flatten.length ≤ room := by
  induction pieces generalizing room with
  | nil => exact Nat.zero_le room
  | cons piece more ih =>
    rw [takeFitting]
    split
    · next hfits =>
      have hmore := ih (room - piece.length)
      rw [List.flatten_cons, List.length_append]
      omega
    · exact Nat.zero_le room

/-- The first piece that is not taken does not fit behind those that are. -/
theorem lt_length_of_takeFitting {room : Nat} {pieces more : List (List Char)} {word : List Char}
    (h : (takeFitting room pieces).2 = word :: more) :
    room < (takeFitting room pieces).1.flatten.length + word.length := by
  induction pieces generalizing room with
  | nil => cases h
  | cons piece rest ih =>
    rw [takeFitting] at h ⊢
    split at h
    · next hfits =>
      have hrest := ih h
      rw [if_pos hfits, List.flatten_cons, List.length_append]
      omega
    · next hfits =>
      obtain ⟨rfl, rfl⟩ := List.cons.inj h
      rw [if_neg hfits, List.flatten_nil, List.length_nil]
      omega

theorem cutLength_le (room : Nat) (word : List Char) : cutLength room word ≤ room := by
  unfold cutLength
  dsimp only
  split
  · rw [List.length_reverse]
    have hcut := (List.dropWhile_suffix (l := (word.take room).reverse) (· != '-')).length_le
    have htake := List.length_take_le room word
    rw [List.length_reverse] at hcut
    omega
  · exact Nat.le_refl room

theorem cutLength_pos {room : Nat} (hroom : 0 < room) (word : List Char) :
    0 < cutLength room word := by
  unfold cutLength
  dsimp only
  split
  · next hany =>
    refine List.length_pos_iff.mpr fun hnil ↦ ?_
    rw [hnil] at hany
    cases hany
  · exact hroom

/-- What is put on a line and what remains make up the pieces. -/
theorem flatten_fillLine (width : Nat) (pieces : List (List Char)) :
    (fillLine width pieces).1.flatten ++ (fillLine width pieces).2.flatten = pieces.flatten := by
  have hfit := takeFitting_append width pieces
  unfold fillLine
  split
  · next taken htaken =>
    rw [htaken] at hfit
    rw [← hfit, List.flatten_append]
  · next taken word more htaken =>
    rw [htaken] at hfit
    split
    · rw [← hfit]
      simp only [List.flatten_append, List.flatten_cons, List.flatten_nil, List.append_nil,
        List.append_assoc]
      rw [← List.append_assoc (word.take _), List.take_append_drop]
    · rw [← hfit, List.flatten_append]

/-- A line is not longer than the width. -/
theorem length_fillLine_le (width : Nat) (pieces : List (List Char)) :
    (fillLine width pieces).1.flatten.length ≤ width := by
  have hfits := length_takeFitting_le width pieces
  unfold fillLine
  split
  · next taken htaken => rwa [htaken] at hfits
  · next taken word more htaken =>
    rw [htaken] at hfits
    dsimp only at hfits ⊢
    split
    · have hcut := cutLength_le (width - taken.flatten.length) word
      have htake := List.length_take_le (cutLength (width - taken.flatten.length) word) word
      rw [List.flatten_append, List.length_append, List.flatten_singleton]
      omega
    · exact hfits

/-- What is left when a line is filled weighs less than what there was. -/
theorem weight_fillLine_lt {width : Nat} (hwidth : 0 < width) {pieces : List (List Char)}
    (hpieces : pieces ≠ []) : weight (fillLine width pieces).2 < weight pieces := by
  have happend := takeFitting_append width pieces
  have hpos := List.length_pos_iff.mpr hpieces
  unfold fillLine
  split
  · simp only [weight, List.length_nil, List.flatten_nil]
    omega
  · next taken word more htaken =>
    have hlong : width < taken.flatten.length + word.length := by
      have hword := lt_length_of_takeFitting (congrArg Prod.snd htaken)
      rwa [htaken] at hword
    rw [htaken] at happend
    have hweight : weight pieces =
        taken.length + more.length + 1 + (taken.flatten.length + word.length +
          more.flatten.length) := by
      rw [← happend]
      simp only [weight, List.length_append, List.length_cons, List.flatten_append,
        List.flatten_cons]
      omega
    -- Either a piece is taken or, where none fits, something of the first one is cut off.
    have htaken : taken = [] ∨ 0 < taken.length := by
      rcases taken with _ | ⟨piece, taken⟩
      · exact .inl rfl
      · exact .inr (Nat.succ_pos _)
    split
    · next hcut =>
      rw [hweight]
      simp only [weight, List.length_cons, List.flatten_cons, List.length_append,
        List.length_drop]
      rcases htaken with rfl | htaken
      · have hpos := cutLength_pos hwidth word
        simp only [List.flatten_nil, List.length_nil, Nat.sub_zero]
        omega
      · omega
    · rw [hweight]
      simp only [weight, List.length_cons, List.flatten_cons, List.length_append]
      rcases htaken with rfl | htaken
      · simp only [List.flatten_nil, List.length_nil] at hlong
        omega
      · omega

theorem inked_eq_nil_of_isBlankPiece {piece : List Char} (h : isBlankPiece piece = true) :
    inked piece = [] :=
  inked_eq_nil_iff.mpr (List.all_eq_true.mp h)

theorem flatten_dropLastBlank_isPrefix (line : List (List Char)) :
    (dropLastBlank line).flatten <+: line.flatten := by
  unfold dropLastBlank
  split
  · split
    · obtain ⟨dropped, hdropped⟩ := List.dropLast_prefix line
      refine ⟨dropped.flatten, ?_⟩
      rw [← List.flatten_append, hdropped]
    · exact List.prefix_rfl
  · exact List.prefix_rfl

theorem inked_dropLastBlank (line : List (List Char)) :
    inked (dropLastBlank line).flatten = inked line.flatten := by
  rcases line.eq_nil_or_concat' with rfl | ⟨line, piece, rfl⟩
  · rfl
  · unfold dropLastBlank
    rw [List.getLast?_concat]
    dsimp only
    split
    · next hblank =>
      rw [List.dropLast_concat, List.flatten_append, List.flatten_singleton, inked_append,
        inked_eq_nil_of_isBlankPiece hblank, List.append_nil]
    · rfl

/-! ## All lines -/

/-- The pieces without a blank one that would begin a line behind another one. -/
def withoutLead (started : Bool) : List (List Char) → List (List Char)
  | piece :: more => if started && isBlankPiece piece then more else piece :: more
  | [] => []

theorem fillLines_succ (width fuel : Nat) (started : Bool) (pieces : List (List Char)) :
    fillLines width (fuel + 1) started pieces =
      let kept := withoutLead started pieces
      if kept.isEmpty then []
      else
        let filled := fillLine width kept
        let line := dropLastBlank filled.1
        if line.isEmpty then fillLines width fuel started filled.2
        else line.flatten :: fillLines width fuel true filled.2 := by
  cases pieces <;> rfl

/-- Pieces begin with a blank one, or none, that is not kept. -/
theorem exists_withoutLead_eq (started : Bool) (pieces : List (List Char)) :
    ∃ lead : List (List Char), pieces = lead ++ withoutLead started pieces ∧
      inked lead.flatten = [] := by
  unfold withoutLead
  split
  · next piece more =>
    split
    · next hblank =>
      refine ⟨[piece], rfl, ?_⟩
      rw [List.flatten_singleton, inked_eq_nil_of_isBlankPiece (Bool.and_eq_true_iff.mp hblank).2]
    · exact ⟨[], rfl, rfl⟩
  · exact ⟨[], rfl, rfl⟩

/-- Lines are filled with stretches of the pieces. -/
theorem infix_flatten_of_mem_fillLines {width fuel : Nat} {started : Bool}
    {pieces : List (List Char)} {line : List Char}
    (h : line ∈ fillLines width fuel started pieces) : line <:+: pieces.flatten := by
  induction fuel generalizing started pieces with
  | zero => cases h
  | succ fuel ih =>
    rw [fillLines_succ] at h
    dsimp only at h
    obtain ⟨lead, hpieces, -⟩ := exists_withoutLead_eq started pieces
    generalize withoutLead started pieces = kept at h hpieces
    rw [hpieces, List.flatten_append, ← flatten_fillLine width kept]
    refine List.IsInfix.trans ?_ (List.suffix_append _ _).isInfix
    split at h
    · cases h
    split at h
    · exact (ih h).trans (List.suffix_append _ _).isInfix
    rcases List.mem_cons.mp h with rfl | hrest
    · exact ((flatten_dropLastBlank_isPrefix _).trans (List.prefix_append _ _)).isInfix
    · exact (ih hrest).trans (List.suffix_append _ _).isInfix

theorem length_le_of_mem_fillLines {width fuel : Nat} {started : Bool}
    {pieces : List (List Char)} {line : List Char}
    (h : line ∈ fillLines width fuel started pieces) : line.length ≤ width := by
  induction fuel generalizing started pieces with
  | zero => cases h
  | succ fuel ih =>
    rw [fillLines_succ] at h
    dsimp only at h
    split at h
    · cases h
    split at h
    · exact ih h
    rcases List.mem_cons.mp h with rfl | hrest
    · exact Nat.le_trans (flatten_dropLastBlank_isPrefix _).length_le (length_fillLine_le _ _)
    · exact ih hrest

/-- The lines that pieces are put on show what the pieces show, where there are enough lines. -/
theorem inked_fillLines {width : Nat} (hwidth : 0 < width) {fuel : Nat} {started : Bool}
    {pieces : List (List Char)} (hfuel : weight pieces ≤ fuel) :
    inked (fillLines width fuel started pieces).flatten = inked pieces.flatten := by
  -- Every line takes some of the weight of the pieces, so the fuel lasts as long as there are any.
  induction fuel generalizing started pieces with
  | zero =>
    have hnil : pieces = [] := by
      refine List.length_eq_zero_iff.mp ?_
      unfold weight at hfuel
      omega
    rw [hnil]
    rfl
  | succ fuel ih =>
    rw [fillLines_succ]
    dsimp only
    obtain ⟨lead, hpieces, hlead⟩ := exists_withoutLead_eq started pieces
    generalize withoutLead started pieces = kept at hpieces
    subst hpieces
    have hkept : weight kept ≤ fuel + 1 := by
      simp only [weight, List.length_append, List.flatten_append] at hfuel ⊢
      omega
    rw [List.flatten_append, inked_append, hlead, List.nil_append]
    split
    · next hempty => rw [List.isEmpty_iff.mp hempty]
    · next hsome =>
      have hrest : weight (fillLine width kept).2 ≤ fuel := by
        have hless := weight_fillLine_lt hwidth (mt List.isEmpty_iff.mpr hsome)
        omega
      have hline := inked_dropLastBlank (fillLine width kept).1
      rw [← flatten_fillLine width kept, inked_append]
      split
      · next hblank =>
        rw [List.isEmpty_iff.mp hblank] at hline
        rw [ih hrest, ← hline]
        rfl
      · rw [List.flatten_cons, inked_append, hline, ih hrest]

/-- The lines of a paragraph are stretches of it, apart from its blanks. -/
theorem infix_of_mem_wrap {width : Nat} {paragraph line : List Char}
    (h : line ∈ wrap width paragraph) : line <:+: plainBlanks paragraph := by
  have hpieces := infix_flatten_of_mem_fillLines h
  rwa [pieces, flatten_piecesAfter] at hpieces

/-- No line of a paragraph is longer than the width. -/
theorem length_le_of_mem_wrap {width : Nat} {paragraph line : List Char}
    (h : line ∈ wrap width paragraph) : line.length ≤ width :=
  length_le_of_mem_fillLines h

/-- The lines of a paragraph show what the paragraph shows. -/
theorem inked_wrap {width : Nat} (hwidth : 0 < width) (paragraph : List Char) :
    inked (wrap width paragraph).flatten = inked paragraph := by
  rw [wrap, inked_fillLines hwidth (Nat.le_refl _), pieces, flatten_piecesAfter, inked_plainBlanks]

end SchemaTypes.Text
