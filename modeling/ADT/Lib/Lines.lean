import Mathlib.Tactic
import Mathlib.Data.List.DropRight

/-!
# Lib.Lines — a text that is cut into lines

A line ends with `lf`, or with `cr` and `lf`.  A text has its first line and the others; where one text follows another,
the line the first one is in the middle of goes on in the second, unless the break falls between `cr` and `lf`.  A text
that comes in chunks, each cut by itself, has its lines in pieces; where enough lines follow the last piece, the last lines
are those of the text, and where the text has few lines, there is one piece too many.
-/

namespace ADT.Lines

variable {α : Type} [DecidableEq α] (cr lf : α)

/-- The first line of a text, and the others. -/
def cutLines : List α → List α × List (List α)
  | [] => ([], [])
  | c :: t =>
    let cut := cutLines t
    if c = lf then ([], cut.1 :: cut.2)
    else if c = cr ∧ t.head? = some lf then cut
    else (c :: cut.1, cut.2)

def allLines (t : List α) : List (List α) := (cutLines cr lf t).1 :: (cutLines cr lf t).2

def ended (t : List α) : List (List α) := (allLines cr lf t).dropLast

/-- The line that the text ends in the middle of; it may be empty. -/
def openLine (t : List α) : List α := (allLines cr lf t).getLastD []

/-- The lines that are not empty. -/
def lines (t : List α) : List (List α) := (allLines cr lf t).filter (!·.isEmpty)

/-- The lines after the first one that are not empty. -/
def laterLines (t : List α) : List (List α) := (cutLines cr lf t).2.filter (!·.isEmpty)

/-- The break between two texts parts `cr` from `lf`. -/
def Parts (a b : List α) : Prop := a.getLast? = some cr ∧ b.head? = some lf

/-- The break between two texts falls in a line: the line goes on behind it, or it parts `cr` from `lf`. -/
def Cuts (a b : List α) : Prop := openLine cr lf a ≠ [] ∧ (cutLines cr lf b).1 ≠ [] ∨ Parts cr lf a b

instance (a b : List α) : Decidable (Parts cr lf a b) := inferInstanceAs (Decidable (_ ∧ _))

instance (a b : List α) : Decidable (Cuts cr lf a b) := inferInstanceAs (Decidable (_ ∨ _))

variable {cr lf} {a b : List α}

theorem allLines_eq (t : List α) : allLines cr lf t = ended cr lf t ++ [openLine cr lf t] :=
  (List.dropLast_append_getLast (List.cons_ne_nil _ _)).symm

theorem allLines_cons {c : α} {t : List α} (hlf : c ≠ lf) (hcr : ¬(c = cr ∧ t.head? = some lf)) :
    allLines cr lf (c :: t) = (c :: (cutLines cr lf t).1) :: (cutLines cr lf t).2 := by
  rw [allLines, cutLines]
  simp only [if_neg hlf, if_neg hcr]

theorem allLines_lf (t : List α) : allLines cr lf (lf :: t) = [] :: allLines cr lf t := by
  rw [allLines, cutLines]
  simp only [if_true]
  rfl

theorem allLines_cr {t : List α} (hne : cr ≠ lf) (h : t.head? = some lf) :
    allLines cr lf (cr :: t) = allLines cr lf t := by
  rw [allLines, cutLines]
  simp only [if_neg hne, h, and_self, if_true]
  rfl

/-- **One text after another.** The line that the first one is in the middle of goes on. -/
theorem allLines_append (hne : cr ≠ lf) (h : ¬Parts cr lf a b) : allLines cr lf (a ++ b) =
    ended cr lf a ++ (openLine cr lf a ++ (cutLines cr lf b).1) :: (cutLines cr lf b).2 := by
  induction a with
  | nil => rfl
  | cons c t ih =>
    have ht : ¬Parts cr lf t b := by
      rintro ⟨hlast, hhead⟩
      refine h ⟨?_, hhead⟩
      cases t with
      | nil => cases hlast
      | cons d t => rwa [List.getLast?_cons_cons]
    replace ih := ih ht
    by_cases hlf : c = lf
    · subst hlf
      rw [List.cons_append, allLines_lf, ih]
      simp only [ended, openLine, allLines_lf]
      rfl
    by_cases hcr : c = cr ∧ t.head? = some lf
    · obtain ⟨rfl, hhead⟩ := hcr
      have hhead' : (t ++ b).head? = some lf := by
        cases t with
        | nil => cases hhead
        | cons d t => exact hhead
      rw [List.cons_append, allLines_cr hne hhead', ih]
      simp only [ended, openLine, allLines_cr hne hhead]
    · have hcr' : ¬(c = cr ∧ (t ++ b).head? = some lf) := by
        rintro ⟨rfl, hhead⟩
        cases t with
        | nil => exact h ⟨rfl, hhead⟩
        | cons d t => exact hcr ⟨rfl, hhead⟩
      rw [List.cons_append, allLines_cons hlf hcr']
      simp only [ended, openLine, allLines_cons hlf hcr]
      simp only [allLines, ended, openLine] at ih
      generalize cutLines cr lf t = cut at ih ⊢
      obtain ⟨line, rest⟩ := cut
      cases rest with
      | nil =>
        obtain ⟨hline, hrest⟩ := List.cons_eq_cons.1 ih
        rw [hline, hrest]
        rfl
      | cons next rest =>
        obtain ⟨hline, hrest⟩ := List.cons_eq_cons.1 ih
        rw [hline, hrest]
        rfl

theorem allLines_parts (hne : cr ≠ lf) (h : Parts cr lf a b) : ∃ t, a = t ++ [cr] ∧
    allLines cr lf (a ++ b) = ended cr lf t ++ openLine cr lf t :: (cutLines cr lf b).2 ∧
      ended cr lf a = ended cr lf t ∧ openLine cr lf a = openLine cr lf t ++ [cr] := by
  obtain ⟨hlast, hhead⟩ := h
  obtain ⟨t, rfl⟩ : ∃ t, a = t ++ [cr] := List.getLast?_eq_some_iff.1 hlast
  obtain ⟨b', rfl⟩ : ∃ b', b = lf :: b' := by
    cases b with
    | nil => cases hhead
    | cons c b =>
      obtain rfl : c = lf := by simpa using hhead
      exact ⟨b, rfl⟩
  have hcut : ∀ d : List α, ¬Parts cr lf t (cr :: d) := fun d h => hne (by simpa [Parts] using h.2)
  have hwhole := allLines_append hne (hcut (lf :: b'))
  have hpart := allLines_append hne (hcut [])
  have hline : allLines cr lf [cr] = [[cr]] := by
    rw [allLines_cons hne (by simp)]
    rfl
  have hends : allLines cr lf (cr :: lf :: b') = [] :: allLines cr lf b' := by
    rw [allLines_cr hne rfl, allLines_lf]
  simp only [allLines, List.cons.injEq] at hline hends
  refine ⟨t, rfl, ?_, ?_, ?_⟩
  · rw [List.append_assoc, List.singleton_append, hwhole, hends.1, hends.2, List.append_nil]
    have hlf := @allLines_lf _ _ cr lf b'
    simp only [allLines, List.cons.injEq] at hlf
    rw [hlf.2]
  · rw [ended, hpart, hline.1, hline.2, List.dropLast_concat]
  · simp only [openLine, hpart, hline.1, hline.2]
    simp

theorem lines_append (hne : cr ≠ lf) (h : ¬Cuts cr lf a b) : lines cr lf (a ++ b) = lines cr lf a ++ lines cr lf b := by
  rw [Cuts, not_or, not_and_or, not_not, not_not] at h
  rw [lines, allLines_append hne h.2, lines, allLines_eq a, lines, allLines]
  rcases h.1 with hopen | hfirst
  · simp [hopen, List.filter_append, List.filter_cons]
  · by_cases hopen : openLine cr lf a = []
    · simp [hfirst, hopen, List.filter_append]
    · simp [hfirst, hopen, List.filter_append]

theorem lines_append_later (hne : cr ≠ lf) (a b : List α) : ∃ l, lines cr lf (a ++ b) = l ++ laterLines cr lf b := by
  by_cases h : Parts cr lf a b
  · obtain ⟨t, -, hlines, -⟩ := allLines_parts hne h
    refine ⟨(ended cr lf t ++ [openLine cr lf t]).filter (!·.isEmpty), ?_⟩
    rw [lines, hlines, laterLines, ← List.filter_append, List.append_assoc]
    rfl
  · refine ⟨(ended cr lf a ++ [openLine cr lf a ++ (cutLines cr lf b).1]).filter (!·.isEmpty), ?_⟩
    rw [lines, allLines_append hne h, laterLines, ← List.filter_append, List.append_assoc]
    rfl

theorem lines_later (t : List α) : ∃ l, lines cr lf t = l ++ laterLines cr lf t := by
  refine ⟨[(cutLines cr lf t).1].filter (!·.isEmpty), ?_⟩
  rw [lines, allLines, laterLines, ← List.filter_append]
  rfl

/-- A break inside a line makes a piece more; no break makes less. -/
theorem lines_append_length (hne : cr ≠ lf) (a b : List α) : (lines cr lf (a ++ b)).length +
    (if openLine cr lf a ≠ [] ∧ (cutLines cr lf b).1 ≠ [] then 1 else 0) ≤
      (lines cr lf a).length + (lines cr lf b).length := by
  by_cases hparts : Parts cr lf a b
  · obtain ⟨t, -, hwhole, hended, hopen⟩ := allLines_parts hne hparts
    have hfirst : (cutLines cr lf b).1 = [] := by
      obtain ⟨-, hhead⟩ := hparts
      cases b with
      | nil => rfl
      | cons c b =>
        obtain rfl : c = lf := Option.some.inj hhead
        rw [cutLines, if_pos rfl]
    rw [lines, hwhole, lines, allLines_eq a, hended, hopen, lines, allLines, hfirst]
    by_cases hempty : openLine cr lf t = []
    · simp [List.filter_append, hempty]
    · simp [List.filter_append, hempty]
      omega
  · rw [lines, allLines_append hne hparts, lines, allLines_eq a, lines, allLines]
    by_cases hopen : openLine cr lf a = []
    · simp [List.filter_append, hopen]
    · by_cases hfirst : (cutLines cr lf b).1 = []
      · simp [List.filter_append, hopen, hfirst]
        omega
      · simp [List.filter_append, hopen, hfirst]

section Window

variable {β : Type} {n : ℕ}

theorem rtake_append_of_le (l : List β) {m : List β} (h : n ≤ m.length) : (l ++ m).rtake n = m.rtake n := by
  rw [List.rtake, List.rtake, List.length_append, Nat.add_sub_assoc h, List.drop_append,
    List.drop_eq_nil_of_le (Nat.le_add_right _ _), Nat.add_sub_cancel_left, List.nil_append]

theorem rtake_append_of_ge (l : List β) {m : List β} (h : m.length ≤ n) :
    (l ++ m).rtake n = l.rtake (n - m.length) ++ m := by
  have hlen : l.length + m.length - n = l.length - (n - m.length) := by omega
  rw [List.rtake, List.rtake, List.length_append, hlen, List.drop_append_of_le_length (Nat.sub_le _ _)]

theorem rtake_rtake_append (l m : List β) : (l.rtake n ++ m).rtake n = (l ++ m).rtake n := by
  rcases Nat.le_total n m.length with h | h
  · rw [rtake_append_of_le _ h, rtake_append_of_le _ h]
  · rw [rtake_append_of_ge _ h, rtake_append_of_ge _ h]
    have htake : (l.rtake n).rtake (n - m.length) = l.rtake (n - m.length) := by
      rw [List.rtake, List.rtake, List.rtake, List.drop_drop, List.length_drop]
      congr 1
      omega
    rw [htake]

theorem rtake_length_le (l : List β) : (l.rtake n).length ≤ n := by
  rw [List.rtake, List.length_drop]
  omega

end Window

/-! ### A text in chunks -/

section Chunks

variable (cr lf)

/-- The lines of each chunk by itself. -/
def chunkLines (chunks : List (List α)) : List (List α) := chunks.flatMap (lines cr lf)

/-- The chunks before the last break that cuts a line, and the text behind it. -/
def lastCut : List (List α) → Option (List (List α) × List α)
  | [] => none
  | c :: rest =>
    match lastCut rest with
    | some (before, after) => some (c :: before, after)
    | none => if Cuts cr lf c rest.flatten then some ([c], rest.flatten) else none

/-- The last `n` lines do not show that a line is cut: as many follow the last one that is. -/
def Unseen (n : ℕ) (chunks : List (List α)) : Prop :=
  ∀ before after, lastCut cr lf chunks = some (before, after) → n ≤ (laterLines cr lf after).length

/-- A break falls between two letters of a line. -/
def Torn (chunks : List (List α)) : Prop :=
  ∃ pre c post, chunks = pre ++ c :: post ∧ openLine cr lf c ≠ [] ∧ (cutLines cr lf post.flatten).1 ≠ []

variable {cr lf} {chunks before : List (List α)} {after : List α}

theorem lastCut_eq_none_iff : lastCut cr lf chunks = none ↔
    ∀ pre c post, chunks = pre ++ c :: post → ¬Cuts cr lf c post.flatten := by
  induction chunks with
  | nil => exact ⟨fun _ pre c post h => by simp at h, fun _ => rfl⟩
  | cons c rest ih =>
    constructor
    · intro h pre d post hsplit
      rw [lastCut] at h
      split at h
      · cases h
      · rename_i hrest
        rcases List.cons_eq_append_iff.1 hsplit with ⟨rfl, hcons⟩ | ⟨pre, rfl, hrest'⟩
        · obtain ⟨rfl, rfl⟩ := List.cons_eq_cons.1 hcons
          intro hcut
          rw [if_pos hcut] at h
          cases h
        · exact ih.1 hrest pre d post hrest'
    · intro h
      have hrest := ih.2 fun pre d post hsplit => h (c :: pre) d post (congrArg (c :: ·) hsplit)
      rw [lastCut, hrest]
      exact if_neg (h [] c rest rfl)

theorem chunkLines_of_whole (hne : cr ≠ lf) (h : lastCut cr lf chunks = none) :
    chunkLines cr lf chunks = lines cr lf chunks.flatten := by
  induction chunks with
  | nil => rfl
  | cons c rest ih =>
    rw [lastCut_eq_none_iff] at h
    have hrest := ih (lastCut_eq_none_iff.2 fun pre d post hsplit => h (c :: pre) d post (congrArg (c :: ·) hsplit))
    rw [List.flatten_cons, lines_append hne (h [] c rest rfl), ← hrest]
    rfl

theorem lastCut_spec (hne : cr ≠ lf) (h : lastCut cr lf chunks = some (before, after)) :
    chunks.flatten = before.flatten ++ after ∧
      chunkLines cr lf chunks = chunkLines cr lf before ++ lines cr lf after := by
  induction chunks generalizing before with
  | nil => cases h
  | cons c rest ih =>
    rw [lastCut] at h
    split at h
    · rename_i before' after' hrest
      cases h
      obtain ⟨htext, hlines⟩ := ih hrest
      refine ⟨?_, ?_⟩
      · rw [List.flatten_cons, htext, List.flatten_cons, List.append_assoc]
      · show lines cr lf c ++ chunkLines cr lf rest = lines cr lf c ++ chunkLines cr lf before' ++ lines cr lf after
        rw [hlines, List.append_assoc]
    · rename_i hrest
      split at h
      · cases h
        refine ⟨by simp, ?_⟩
        show lines cr lf c ++ chunkLines cr lf rest = lines cr lf c ++ [] ++ lines cr lf rest.flatten
        rw [chunkLines_of_whole hne hrest, List.append_nil]
      · cases h

/-- **A text in chunks.** Where no cut is seen in them, the last lines of the chunks are those of the text. -/
theorem chunkLines_tail {n : ℕ} (hne : cr ≠ lf) (h : Unseen cr lf n chunks) :
    (chunkLines cr lf chunks).rtake n = (lines cr lf chunks.flatten).rtake n := by
  rcases hcut : lastCut cr lf chunks with _ | ⟨before, after⟩
  · rw [chunkLines_of_whole hne hcut]
  obtain ⟨htext, hchunks⟩ := lastCut_spec hne hcut
  obtain ⟨pieces, hpieces⟩ := @lines_later _ _ cr lf after
  obtain ⟨whole, hwhole⟩ := lines_append_later hne before.flatten after
  rw [hpieces, ← List.append_assoc] at hchunks
  rw [← htext] at hwhole
  rw [hchunks, hwhole, rtake_append_of_le _ (h _ _ hcut), rtake_append_of_le _ (h _ _ hcut)]

theorem flatten_length_le (hne : cr ≠ lf) (chunks : List (List α)) :
    (lines cr lf chunks.flatten).length ≤ (chunkLines cr lf chunks).length := by
  induction chunks with
  | nil => exact Nat.le_refl 0
  | cons c rest ih =>
    have hstep := lines_append_length hne c rest.flatten
    rw [List.flatten_cons, chunkLines, List.flatMap_cons, List.length_append, ← chunkLines]
    omega

theorem flatten_length_lt (hne : cr ≠ lf) (h : Torn cr lf chunks) :
    (lines cr lf chunks.flatten).length < (chunkLines cr lf chunks).length := by
  obtain ⟨pre, c, post, rfl, htorn⟩ := h
  have hbefore := lines_append_length hne pre.flatten (c ++ post.flatten)
  have hcut := lines_append_length hne c post.flatten
  rw [if_pos htorn] at hcut
  have hpre := flatten_length_le hne pre
  have hpost := flatten_length_le hne post
  rw [chunkLines] at hpre hpost
  rw [List.flatten_append, List.flatten_cons, chunkLines, List.flatMap_append, List.flatMap_cons, List.length_append,
    List.length_append]
  omega

/-- A text of fewer than `n` lines shows every break inside a line. -/
theorem chunkLines_tail_length {n : ℕ} (hne : cr ≠ lf) (h : Torn cr lf chunks)
    (hfew : (lines cr lf chunks.flatten).length < n) :
    ((lines cr lf chunks.flatten).rtake n).length < ((chunkLines cr lf chunks).rtake n).length := by
  have hlt := flatten_length_lt hne h
  rw [List.rtake, List.rtake, List.length_drop, List.length_drop]
  omega

end Chunks

end ADT.Lines
