import Mathlib.Data.List.TakeWhile
import StreamAuth.Text.Blank

/-!
# Where a run of characters stops

What is taken or dropped of a text while its characters are of one kind stops at the first character of another kind. So what
stands between two runs of blanks is what is left when blanks are cut from the two ends (`trim_around`), whatever counts as a
blank.
-/

namespace StreamAuth.Text

variable {p : Char → Bool} {run rest : List Char}

/-- A run stops where a character of another kind follows. -/
theorem stops_cons {c : Char} (h : p c = false) (rest : List Char) : ∀ x ∈ (c :: rest).head?, p x = false := by
  intro x hx
  cases hx
  exact h

/-- What goes on to some character is taken up to it. -/
theorem takeWhile_run (h : ∀ c ∈ run, p c = true) (hstop : ∀ c ∈ rest.head?, p c = false) : (run ++ rest).takeWhile p = run := by
  rw [List.takeWhile_append_of_pos h]
  cases rest with
  | nil => rw [List.takeWhile_nil, List.append_nil]
  | cons c rest => rw [List.takeWhile_cons, hstop c rfl, if_neg Bool.false_ne_true, List.append_nil]

/-- What goes on to some character is dropped up to it. -/
theorem dropWhile_run (h : ∀ c ∈ run, p c = true) (hstop : ∀ c ∈ rest.head?, p c = false) : (run ++ rest).dropWhile p = rest := by
  rw [List.dropWhile_append_of_pos h]
  cases rest with
  | nil => rfl
  | cons c rest => rw [List.dropWhile_cons, hstop c rfl, if_neg Bool.false_ne_true]

theorem bne_of_not_mem {c : Char} (h : c ∉ run) : ∀ x ∈ run, (x != c) = true := by
  intro x hx
  rw [bne_iff_ne]
  rintro rfl
  exact h hx

/-- What is taken up to a character stops at the first one of it. -/
theorem takeWhile_upTo {c : Char} (h : c ∉ run) (rest : List Char) : (run ++ c :: rest).takeWhile (· != c) = run :=
  takeWhile_run (bne_of_not_mem h) (stops_cons (p := (· != c)) (bne_self_eq_false c) rest)

/-- What is dropped up to a character leaves all from the first one of it. -/
theorem dropWhile_upTo {c : Char} (h : c ∉ run) (rest : List Char) : (run ++ c :: rest).dropWhile (· != c) = c :: rest :=
  dropWhile_run (bne_of_not_mem h) (stops_cons (p := (· != c)) (bne_self_eq_false c) rest)

/-- Blanks at the end of a text are cut from it, up to a character that is none. -/
theorem trimEnd_run (h : ∀ c ∈ run.getLast?, p c = false) (hblank : ∀ c ∈ rest, p c = true) : trimEnd p (run ++ rest) = run := by
  rw [trimEnd, List.reverse_append, dropWhile_run, List.reverse_reverse]
  · exact fun c hc => hblank c (List.mem_reverse.mp hc)
  · rwa [List.head?_reverse]

/-- Nothing is cut from the end of a text that does not end with a blank. -/
theorem trimEnd_eq_self (h : ∀ c ∈ run.getLast?, p c = false) : trimEnd p run = run := by
  have htrim : trimEnd p (run ++ []) = run := trimEnd_run h nofun
  rwa [List.append_nil] at htrim

/-- Nothing is left of a text that is cut at its two ends if it is blank. -/
theorem trim_eq_nil_iff : trim p run = [] ↔ ∀ c ∈ run, p c = true := by
  rw [trim, trimEnd, List.reverse_eq_nil_iff, List.dropWhile_eq_nil_iff]
  constructor
  · intro h
    refine List.dropWhile_eq_nil_iff.mp ?_
    by_contra hne
    have hhead := List.head_dropWhile_not p hne
    rw [h _ (List.mem_reverse.mpr (List.head_mem hne))] at hhead
    cases hhead
  · intro h c hc
    exact h c ((List.dropWhile_sublist p).subset (List.mem_reverse.mp hc))

/-- A text without blanks at its two ends is left when the blanks around it are cut. -/
theorem trim_around {front back core : List Char} (hfront : ∀ c ∈ front, p c = true) (hback : ∀ c ∈ back, p c = true)
    (hfirst : ∀ c ∈ core.head?, p c = false) (hlast : ∀ c ∈ core.getLast?, p c = false) :
    trim p (front ++ core ++ back) = core := by
  cases core with
  | nil =>
    have hall : ∀ c ∈ front ++ [] ++ back, p c = true := by
      rw [List.append_nil]
      exact List.forall_mem_append.mpr ⟨hfront, hback⟩
    rw [trim, List.dropWhile_eq_nil_iff.mpr hall]
    rfl
  | cons c core =>
    have hstop : ∀ x ∈ (c :: core ++ back).head?, p x = false := stops_cons (hfirst c rfl) (core ++ back)
    rw [trim, List.append_assoc, dropWhile_run hfront hstop, trimEnd_run hlast hback]

end StreamAuth.Text
