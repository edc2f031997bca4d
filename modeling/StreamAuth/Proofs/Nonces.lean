import Mathlib.Data.Nat.Nth
import Mathlib.Order.Interval.Set.Nat
import StreamAuth.Nonce

/-!
# Which words a nonce is drawn from

Drawing goes on until the nonce is complete, and a source of words may pass over any number of them in between; `Draws` says what
comes of it if it ends. The words that are accepted are counted: whatever is drawn, the next character is that of the next
accepted word (`Draws.getElem?_eq`), and drawing stops behind the last of them (`Draws.stop_eq`). Words that are repeated have an
accepted one in every round, if they have one at all, so the drawing ends (`draws_ofCycle`). Every character is drawn by as many
words as any other (`ncard_draw?`).
-/

namespace StreamAuth.Nonce

/-- The value of the top six bits of a word. -/
def topSix (word : UInt32) : Nat :=
  (word >>> 26).toNat

/-- A word is accepted if its top six bits name a character. -/
def Accepts (word : UInt32) : Prop :=
  topSix word < 62

instance (word : UInt32) : Decidable (Accepts word) :=
  inferInstanceAs (Decidable (topSix word < 62))

/-- Some words, repeated over and over. -/
def cycle (words : List UInt32) (i : Nat) : UInt32 :=
  words.getD (i % words.length) 0

/-- What comes of drawing `missing` characters from a source of words that never ends, with the word at `start` the next one: the
characters, and the place at which the drawing stops. -/
inductive Draws (source : Nat → UInt32) : (missing start : Nat) → List Char → (stop : Nat) → Prop where
  | done (start : Nat) : Draws source 0 start [] start
  | taken {missing start stop : Nat} {c : Char} {characters : List Char} :
      draw? (source start) = some c → Draws source missing (start + 1) characters stop →
      Draws source (missing + 1) start (c :: characters) stop
  | passed {missing start stop : Nat} {characters : List Char} :
      draw? (source start) = none → Draws source (missing + 1) (start + 1) characters stop →
      Draws source (missing + 1) start characters stop

/-! ## Characters of words -/

theorem draw?_eq (word : UInt32) : draw? word = alphabet[topSix word]? := rfl

theorem length_alphabet : alphabet.length = 62 := by decide +kernel

theorem nodup_alphabet : alphabet.Nodup := by decide +kernel

theorem isAlphanum_of_mem_alphabet {c : Char} (h : c ∈ alphabet) : c.isAlphanum :=
  List.all_eq_true.mp (by decide +kernel : alphabet.all Char.isAlphanum = true) c h

theorem accepts_iff {word : UInt32} : Accepts word ↔ (draw? word).isSome := by
  rw [draw?_eq, Accepts, ← length_alphabet, isSome_getElem?]

theorem accepts_of_some {word : UInt32} {c : Char} (h : draw? word = some c) : Accepts word :=
  accepts_iff.mpr (by rw [h]; rfl)

theorem not_accepts_of_none {word : UInt32} (h : draw? word = none) : ¬Accepts word := by
  rw [accepts_iff, h]
  nofun

theorem topSix_eq (word : UInt32) : topSix word = word.toNat / 2 ^ 26 := by
  rw [topSix, UInt32.toNat_shiftRight, Nat.shiftRight_eq_div_pow]
  rfl

/-- As many words have some six bits on top as any others. -/
theorem ncard_topSix {i : Nat} (h : i < 64) : {word : UInt32 | topSix word = i}.ncard = 2 ^ 26 := by
  have hlt : ∀ k < 2 ^ 26, i * 2 ^ 26 + k < 2 ^ 32 := by omega
  have hwords : {word : UInt32 | topSix word = i} = (fun k => UInt32.ofNat (i * 2 ^ 26 + k)) '' Set.Iio (2 ^ 26) := by
    ext word
    simp only [Set.mem_ofPred_eq, Set.mem_image, Set.mem_Iio, topSix_eq]
    constructor
    · intro hi
      refine ⟨word.toNat % 2 ^ 26, Nat.mod_lt _ (by decide), ?_⟩
      rw [← hi, Nat.div_add_mod', UInt32.ofNat_toNat]
    · rintro ⟨k, hk, rfl⟩
      rw [UInt32.toNat_ofNat_of_lt' (hlt k hk)]
      omega
  have hinjective : Set.InjOn (fun k => UInt32.ofNat (i * 2 ^ 26 + k)) (Set.Iio (2 ^ 26)) := by
    intro k hk k' hk' he
    have hnat := congrArg UInt32.toNat he
    simp only [UInt32.toNat_ofNat_of_lt' (hlt k hk), UInt32.toNat_ofNat_of_lt' (hlt k' hk')] at hnat
    omega
  rw [hwords, hinjective.ncard_image, Set.ncard_Iio_nat]

/-- Every character is drawn by as many words as any other: those with its place in the alphabet on top. -/
theorem ncard_draw? {c : Char} (h : c ∈ alphabet) : {word : UInt32 | draw? word = some c}.ncard = 2 ^ 26 := by
  obtain ⟨i, hi, rfl⟩ := List.mem_iff_getElem.mp h
  have hbound : i < 62 := length_alphabet ▸ hi
  refine Eq.trans (congrArg Set.ncard (Set.ext fun word => ?_)) (ncard_topSix (i := i) (by omega))
  simp only [Set.mem_ofPred_eq, draw?_eq]
  constructor
  · intro hdraw
    obtain ⟨hlt, he⟩ := List.getElem?_eq_some_iff.mp hdraw
    exact (nodup_alphabet.getElem_inj_iff).mp he
  · rintro rfl
    exact List.getElem?_eq_getElem hi

/-! ## Drawing -/

namespace Draws

variable {source : Nat → UInt32} {missing start stop : Nat} {characters : List Char}

theorem length_eq (h : Draws source missing start characters stop) : characters.length = missing := by
  induction h with
  | done => rfl
  | taken _ _ ih => rw [List.length_cons, ih]
  | passed _ _ ih => exact ih

/-- The drawing comes to one result only. -/
theorem unique (h : Draws source missing start characters stop) {characters' : List Char} {stop' : Nat}
    (h' : Draws source missing start characters' stop') : characters' = characters ∧ stop' = stop := by
  induction h generalizing characters' with
  | done =>
    cases h'
    exact ⟨rfl, rfl⟩
  | taken hc _ ih =>
    cases h' with
    | taken hc' h' =>
      obtain ⟨rfl, rfl⟩ := ih h'
      rw [hc, Option.some.injEq] at hc'
      exact ⟨by rw [hc'], rfl⟩
    | passed hn _ => cases hc.symm.trans hn
  | passed hn _ ih =>
    cases h' with
    | taken hc _ => cases hn.symm.trans hc
    | passed _ h' => exact ih h'

theorem count_of_some {c : Char} (h : draw? (source start) = some c) :
    Nat.count (fun i => Accepts (source i)) (start + 1) = Nat.count (fun i => Accepts (source i)) start + 1 := by
  rw [Nat.count_succ, if_pos (accepts_of_some h)]

theorem count_of_none (h : draw? (source start) = none) :
    Nat.count (fun i => Accepts (source i)) (start + 1) = Nat.count (fun i => Accepts (source i)) start := by
  rw [Nat.count_succ, if_neg (not_accepts_of_none h), Nat.add_zero]

/-- The characters are those of the accepted words, one after another. -/
theorem getElem?_eq (h : Draws source missing start characters stop) {i : Nat} (hi : i < missing) :
    characters[i]? =
      draw? (source (Nat.nth (fun i => Accepts (source i)) (Nat.count (fun i => Accepts (source i)) start + i))) := by
  induction h generalizing i with
  | done => cases hi
  | @taken missing start stop c characters hc _ ih =>
    cases i with
    | zero =>
      rw [Nat.add_zero, Nat.nth_count (p := fun i => Accepts (source i)) (accepts_of_some hc), hc]
      rfl
    | succ i =>
      rw [List.getElem?_cons_succ, ih (Nat.lt_of_succ_lt_succ hi), count_of_some hc, Nat.add_right_comm, Nat.add_assoc]
  | passed hn _ ih => rw [ih hi, count_of_none hn]

/-- The drawing stops behind the last word that it needs. -/
theorem stop_eq (h : Draws source (missing + 1) start characters stop) :
    stop = Nat.nth (fun i => Accepts (source i)) (Nat.count (fun i => Accepts (source i)) start + missing) + 1 := by
  generalize hm : missing + 1 = m at h
  induction h generalizing missing with
  | done => cases hm
  | @taken later start stop c characters hc hlater ih =>
    cases hm
    cases later with
    | zero =>
      cases hlater
      exact (congrArg (· + 1) (Nat.nth_count (p := fun i => Accepts (source i)) (accepts_of_some hc))).symm
    | succ later => rw [ih rfl, count_of_some hc, Nat.add_right_comm, Nat.add_assoc]
  | passed hn _ ih => rw [ih hm, count_of_none hn]

end Draws

/-! ## Words in a row -/

/-- A source that begins with some words goes on with them behind the first. -/
theorem agrees_tail {source : Nat → UInt32} {start : Nat} {word : UInt32} {row : List UInt32}
    (h : ∀ i < (word :: row).length, (word :: row)[i]? = some (source (start + i))) :
    source start = word ∧ ∀ i < row.length, row[i]? = some (source (start + 1 + i)) := by
  refine ⟨(Option.some.inj (h 0 (Nat.zero_lt_succ _))).symm, fun i hi => ?_⟩
  rw [Nat.add_right_comm, Nat.add_assoc]
  exact h (i + 1) (Nat.succ_lt_succ hi)

/-- What is drawn from words in a row is what is drawn from any source that goes on with them, if enough of them are accepted. -/
theorem draws_drawFrom {source : Nat → UInt32} {missing start : Nat} {row : List UInt32}
    (hrow : ∀ i < row.length, row[i]? = some (source (start + i))) (henough : missing ≤ row.countP (Accepts ·)) :
    Draws source missing start (drawFrom missing row).characters (start + (drawFrom missing row).words) := by
  fun_induction drawFrom missing row generalizing start with
  | case1 => exact .done start
  | case2 missing hmissing =>
    rw [List.countP_nil, Nat.le_zero] at henough
    exact absurd henough hmissing
  | case3 missing word row c hc drawn =>
    rename_i ih
    obtain ⟨hword, hlater⟩ := agrees_tail hrow
    rw [List.countP_cons_of_pos (by simpa using accepts_of_some hc)] at henough
    have hdraws := ih hlater (Nat.le_of_succ_le_succ henough)
    rw [Nat.add_assoc, Nat.add_comm 1] at hdraws
    exact .taken (by rw [hword, hc]) hdraws
  | case4 missing word row hn drawn =>
    rename_i ih
    obtain ⟨hword, hlater⟩ := agrees_tail hrow
    rw [List.countP_cons_of_neg (by simpa using not_accepts_of_none hn)] at henough
    have hdraws := ih hlater henough
    rw [Nat.add_assoc, Nat.add_comm 1] at hdraws
    exact .passed (by rw [hword, hn]) hdraws

theorem words_drawFrom_le (missing : Nat) (row : List UInt32) : (drawFrom missing row).words ≤ row.length := by
  fun_induction drawFrom missing row with
  | case1 => exact Nat.zero_le _
  | case2 => exact Nat.zero_le _
  | case3 _ _ _ _ _ _ ih => exact Nat.succ_le_succ ih
  | case4 _ _ _ _ _ ih => exact Nat.succ_le_succ ih

/-! ## Words over and over -/

/-- Some rounds of the words. -/
def rounds (count : Nat) (words : List UInt32) : List UInt32 :=
  (List.replicate count words).flatten

theorem rounds_succ (count : Nat) (words : List UInt32) : rounds (count + 1) words = words ++ rounds count words := by
  rw [rounds, List.replicate_succ, List.flatten_cons]
  rfl

theorem length_rounds (count : Nat) (words : List UInt32) : (rounds count words).length = count * words.length := by
  induction count with
  | zero => rw [Nat.zero_mul]; rfl
  | succ count ih => rw [rounds_succ, List.length_append, ih, Nat.succ_mul, Nat.add_comm]

/-- Rounds of the words are the beginning of the words that are repeated over and over. -/
theorem getElem?_rounds {count : Nat} {words : List UInt32} {i : Nat} (hi : i < (rounds count words).length) :
    (rounds count words)[i]? = some (cycle words i) := by
  induction count generalizing i with
  | zero => cases hi
  | succ count ih =>
    rw [rounds_succ, List.length_append] at hi
    rw [rounds_succ]
    by_cases hfirst : i < words.length
    · rw [List.getElem?_append_left hfirst, cycle, Nat.mod_eq_of_lt hfirst, List.getD_eq_getElem?_getD,
        List.getElem?_eq_getElem hfirst, Option.getD_some]
    · have hle : words.length ≤ i := Nat.le_of_not_lt hfirst
      rw [List.getElem?_append_right hle, ih (by omega), cycle, cycle, ← Nat.mod_eq_sub_mod hle]

/-- Each round has an accepted word. -/
theorem le_countP_rounds {words : List UInt32} (h : ∃ word ∈ words, Accepts word) (count : Nat) :
    count ≤ (rounds count words).countP (Accepts ·) := by
  have hround : 0 < words.countP (Accepts ·) := by
    obtain ⟨word, hmem, haccepts⟩ := h
    exact List.countP_pos_iff.mpr ⟨word, hmem, decide_eq_true haccepts⟩
  induction count with
  | zero => exact Nat.zero_le _
  | succ count ih =>
    rw [rounds_succ, List.countP_append]
    omega

/-- Drawing from words that are repeated ends, if one of them is accepted. -/
theorem draws_ofCycle {words : List UInt32} (h : ∃ word ∈ words, Accepts word) :
    Draws (cycle words) length 0 (ofCycle words).characters (ofCycle words).words := by
  have hrow : ∀ i < (rounds length words).length, (rounds length words)[i]? = some (cycle words (0 + i)) := by
    intro i hi
    rw [Nat.zero_add]
    exact getElem?_rounds hi
  have hdraws := draws_drawFrom hrow (le_countP_rounds h length)
  rwa [Nat.zero_add] at hdraws

theorem words_ofCycle_le (words : List UInt32) : (ofCycle words).words ≤ length * words.length := by
  rw [← length_rounds]
  exact words_drawFrom_le length (rounds length words)

/-- What is drawn has only characters of the alphabet. -/
theorem Draws.mem_alphabet {source : Nat → UInt32} {missing start stop : Nat} {characters : List Char}
    (h : Draws source missing start characters stop) : ∀ c ∈ characters, c ∈ alphabet := by
  induction h with
  | done => nofun
  | taken hc _ ih => exact List.forall_mem_cons.mpr ⟨List.mem_of_getElem? hc, ih⟩
  | passed _ _ ih => exact ih

/-- How a nonce is drawn, in five parts. For all words that are repeated over and over, if the top six bits of one of them are
below 62:
1. The drawing ends, with one result only.
2. The nonce has thirty-two characters, which are letters and digits.
3. Each of them is the character of the alphabet at the top six bits of the accepted word of the same number.
4. As many words are drawn as there are up to the thirty-second that is accepted, and at most thirty-two rounds of them.
5. Every character of the alphabet is drawn by `2 ^ 26` words. -/
theorem ofCycle_of_accepted (words : List UInt32) (h : ∃ word ∈ words, topSix word < 62) :
    let source := cycle words
    let accepted := fun i => topSix (source i) < 62
    let nonce := (ofCycle words).text.toList
    (Draws source 32 0 nonce (ofCycle words).words ∧
        ∀ characters stop, Draws source 32 0 characters stop → characters = nonce ∧ stop = (ofCycle words).words) ∧
      (nonce.length = 32 ∧ ∀ c ∈ nonce, c.isAlphanum) ∧
      (∀ i < 32, nonce[i]? = alphabet[topSix (source (Nat.nth accepted i))]?) ∧
      ((ofCycle words).words = Nat.nth accepted 31 + 1 ∧ (ofCycle words).words ≤ 32 * words.length) ∧
      ∀ c ∈ alphabet, {word : UInt32 | draw? word = some c}.ncard = 2 ^ 26 := by
  intro source accepted nonce
  have hnonce : nonce = (ofCycle words).characters := by simp only [nonce, Drawn.text, String.toList_ofList]
  have hdraws : Draws source 32 0 nonce (ofCycle words).words := hnonce ▸ draws_ofCycle h
  refine ⟨⟨hdraws, fun characters stop => hdraws.unique⟩,
    ⟨hdraws.length_eq, fun c hc => isAlphanum_of_mem_alphabet (hdraws.mem_alphabet c hc)⟩, fun i hi => ?_,
    ⟨?_, words_ofCycle_le words⟩, fun c => ncard_draw?⟩
  · have hcharacter := hdraws.getElem?_eq hi
    rwa [Nat.count_zero, Nat.zero_add] at hcharacter
  · have hstop := hdraws.stop_eq
    rwa [Nat.count_zero, Nat.zero_add] at hstop

/-- Of four words, the first and the last are passed over. However the drawing goes, it takes sixty-three words, and the last of
them is at place 62. -/
theorem ofCycle_of_accepted_half :
    let words : List UInt32 := [0xFFFFFFFF, 0, 0x07FFFFFF, 0xF8000000]
    (∃ word ∈ words, topSix word < 62) ∧
      (∀ characters stop, Draws (cycle words) 32 0 characters stop →
        characters = "ABABABABABABABABABABABABABABABAB".toList ∧ stop = 63) ∧
      Nat.nth (fun i => topSix (cycle words i) < 62) 31 = 62 := by
  intro words
  have h : ∃ word ∈ words, topSix word < 62 := ⟨0, by simp [words], by decide⟩
  have htext : (ofCycle words).text.toList = "ABABABABABABABABABABABABABABABAB".toList := by decide +kernel
  have hwords : (ofCycle words).words = 63 := by decide +kernel
  obtain ⟨⟨-, hunique⟩, -, -, ⟨hplace, -⟩, -⟩ := ofCycle_of_accepted words h
  rw [htext, hwords] at hunique
  rw [hwords] at hplace
  exact ⟨h, hunique, (Nat.succ.inj hplace).symm⟩

end StreamAuth.Nonce
