import StreamAuth.Proofs.Runs
import StreamAuth.Scram

/-!
# What the first message says

A server takes the first message apart at its commas. The user name is written without any, so it ends at the first comma
behind it, and whatever the name is, it is one attribute and leaves the others as they are (`splitOn_clientFirst`). In the
written name an equals sign begins one of two escapes, so putting back what they stand for gives the name (`restore_nameText`).
The message is then read back as the name and the nonce that went into it (`readFirst?_clientFirst`).
-/

namespace StreamAuth.Scram

/-! ## Reading a first message -/

/-- A written name with the two escapes put back. -/
def restore : List Char → List Char
  | '=' :: '3' :: 'D' :: rest => '=' :: restore rest
  | '=' :: '2' :: 'C' :: rest => ',' :: restore rest
  | c :: rest => c :: restore rest
  | [] => []

/-- The user name and the nonce of a first message: the name goes to the first comma behind `n,,n=`, and the nonce follows
`r=`. -/
def readFirst? (message : String) : Option (String × String) :=
  match message.toList with
  | 'n' :: ',' :: ',' :: 'n' :: '=' :: body =>
    match body.dropWhile (· != ',') with
    | ',' :: 'r' :: '=' :: nonce => some (String.ofList (restore (body.takeWhile (· != ','))), String.ofList nonce)
    | _ => none
  | _ => none

/-! ## Written names -/

/-- A character is written as an escape, or as it is if it is neither of the two that have one. -/
theorem nameChar_cases (c : Char) :
    (c = '=' ∧ nameChar c = ['=', '3', 'D']) ∨ (c = ',' ∧ nameChar c = ['=', '2', 'C']) ∨
      (c ≠ '=' ∧ c ≠ ',' ∧ nameChar c = [c]) := by
  unfold nameChar
  split
  · exact Or.inl ⟨rfl, rfl⟩
  · exact Or.inr (Or.inl ⟨rfl, rfl⟩)
  · exact Or.inr (Or.inr ⟨by assumption, by assumption, rfl⟩)

theorem toList_nameText (username : String) : (nameText username).toList = username.toList.flatMap nameChar := by
  rw [nameText, String.toList_ofList]

/-- A written name has no comma. -/
theorem comma_not_mem_nameText (username : String) : ',' ∉ (nameText username).toList := by
  rw [toList_nameText]
  intro hm
  obtain ⟨c, -, hc⟩ := List.mem_flatMap.mp hm
  rcases nameChar_cases c with ⟨-, he⟩ | ⟨-, he⟩ | ⟨-, hne, he⟩
  · rw [he] at hc
    revert hc
    decide
  · rw [he] at hc
    revert hc
    decide
  · rw [he, List.mem_singleton] at hc
    exact hne hc.symm

/-- Every equals sign in a written name begins an escape. -/
theorem escape_of_equals {rest name : List Char} (h : '=' :: rest <:+ name.flatMap nameChar) :
    ['=', '3', 'D'] <+: '=' :: rest ∨ ['=', '2', 'C'] <+: '=' :: rest := by
  induction name with
  | nil => exact absurd (List.suffix_nil.mp h) (List.cons_ne_nil _ _)
  | cons c name ih =>
    rw [List.flatMap_cons] at h
    rcases nameChar_cases c with ⟨-, he⟩ | ⟨-, he⟩ | ⟨hne, -, he⟩
    · simp only [he, List.cons_append, List.nil_append, List.suffix_cons_iff] at h
      rcases h with h | h | h | h
      · exact Or.inl ⟨_, h.symm⟩
      · cases h
      · cases h
      · exact ih h
    · simp only [he, List.cons_append, List.nil_append, List.suffix_cons_iff] at h
      rcases h with h | h | h | h
      · exact Or.inr ⟨_, h.symm⟩
      · cases h
      · cases h
      · exact ih h
    · rw [he, List.singleton_append, List.suffix_cons_iff] at h
      rcases h with h | h
      · exact absurd (List.cons.inj h).1.symm hne
      · exact ih h

/-- Putting the escapes of a written name back gives the name. -/
theorem restore_flatMap (name : List Char) : restore (name.flatMap nameChar) = name := by
  induction name with
  | nil => rfl
  | cons c name ih =>
    rw [List.flatMap_cons]
    rcases nameChar_cases c with ⟨rfl, he⟩ | ⟨rfl, he⟩ | ⟨hne, -, he⟩
    · rw [he, List.cons_append, List.cons_append, List.cons_append, List.nil_append, restore, ih]
    · rw [he, List.cons_append, List.cons_append, List.cons_append, List.nil_append, restore, ih]
    · rw [he, List.singleton_append, restore, ih]
      · exact fun _ hc => absurd hc hne
      · exact fun _ hc => absurd hc hne

theorem restore_nameText (username : String) : String.ofList (restore (nameText username).toList) = username := by
  rw [toList_nameText, restore_flatMap, String.ofList_toList]

/-! ## The message -/

/-- The first message, character by character. -/
theorem toList_clientFirst (username nonce : String) :
    (clientFirst username nonce).toList =
      'n' :: ',' :: ',' :: 'n' :: '=' :: ((nameText username).toList ++ ',' :: 'r' :: '=' :: nonce.toList) := by
  simp [clientFirst, clientFirstBare, header]

/-- Of the parts between the commas of the message one is the written name, and the others do not depend on the name. -/
theorem splitOn_clientFirst (username nonce : String) :
    (clientFirst username nonce).toList.splitOn ',' =
      ['n'] :: [] :: ('n' :: '=' :: (nameText username).toList) :: ('r' :: '=' :: nonce.toList).splitOn ',' := by
  have hname : ',' ∉ 'n' :: '=' :: (nameText username).toList := by
    simp [comma_not_mem_nameText]
  calc (clientFirst username nonce).toList.splitOn ','
      = (['n'] ++ ',' :: ([] ++ ',' :: (('n' :: '=' :: (nameText username).toList) ++
          ',' :: 'r' :: '=' :: nonce.toList))).splitOn ',' := by rw [toList_clientFirst]; rfl
    _ = _ := by
      rw [List.splitOn_append_cons_self_of_not_mem (by decide), List.splitOn_append_cons_self_of_not_mem (by decide),
        List.splitOn_append_cons_self_of_not_mem hname]

/-- A first message is read back as the user name and the nonce that went into it. -/
theorem readFirst?_clientFirst (username nonce : String) :
    readFirst? (clientFirst username nonce) = some (username, nonce) := by
  have hname := comma_not_mem_nameText username
  simp only [readFirst?, toList_clientFirst, Text.takeWhile_upTo hname, Text.dropWhile_upTo hname, restore_nameText,
    String.ofList_toList]

/-- What a user name can do to the first message, in four parts. For every user name and every nonce:
1. The written name has no comma, and every equals sign in it begins `=3D` or `=2C`.
2. With these two put back it is the user name again.
3. Of the parts between the commas of the message the third is `n=` and the written name, and the others are what they are
   without it. So the message is read back as this user name and this nonce: the name goes from `n,,n=` to the first comma.
4. No other user name and no other nonce make the same message. -/
theorem message_of_name (username nonce : String) :
    (',' ∉ (nameText username).toList ∧ ∀ rest, '=' :: rest <:+ (nameText username).toList →
        ['=', '3', 'D'] <+: '=' :: rest ∨ ['=', '2', 'C'] <+: '=' :: rest) ∧
      String.ofList (restore (nameText username).toList) = username ∧
      ((clientFirst username nonce).toList.splitOn ',' =
          ['n'] :: [] :: ('n' :: '=' :: (nameText username).toList) :: ('r' :: '=' :: nonce.toList).splitOn ',' ∧
        readFirst? (clientFirst username nonce) = some (username, nonce)) ∧
      ∀ username' nonce', clientFirst username nonce = clientFirst username' nonce' ↔ username = username' ∧ nonce = nonce' := by
  refine ⟨⟨comma_not_mem_nameText username, fun rest h => ?_⟩, restore_nameText username,
    ⟨splitOn_clientFirst username nonce, readFirst?_clientFirst username nonce⟩, fun username' nonce' => ⟨fun h => ?_, ?_⟩⟩
  · rw [toList_nameText] at h
    exact escape_of_equals h
  · have hread := congrArg readFirst? h
    rw [readFirst?_clientFirst, readFirst?_clientFirst] at hread
    exact Prod.mk.inj (Option.some.inj hread)
  · rintro ⟨rfl, rfl⟩
    rfl

end StreamAuth.Scram
