import Mathlib.Data.List.TakeWhile
import StreamAuth.Xml.Element

/-!
# The two ways through a tree

Elements of a tree may be equal, so an element is told from others by its place: the row of child numbers that leads to it from
the root (`at?`). The list of all elements goes through the places of the tree in order (`map_at?_places`), and this order is that
of documents: an element comes before what is inside it, and all that is inside a child before its later siblings
(`Precedes`). The search for a local name stops at the first of these elements that has it (`find?_eq`).
-/

namespace StreamAuth.Xml.Element

/-! ## Places -/

/-- The element at a place: the numbers of the children that lead to it. -/
def at? (e : Element) : List Nat → Option Element
  | [] => some e
  | i :: place => e.children[i]?.bind (·.at? place)

/-- The element at a place of a row of trees. -/
def atAmong? (row : List Element) : List Nat → Option Element
  | [] => none
  | i :: place => row[i]?.bind (·.at? place)

mutual

/-- The places of a tree in the order of the document. -/
def places : Element → List (List Nat)
  | ⟨_, _, _, children⟩ => [] :: placesAmong 0 children

/-- The places of a row of trees, if `first` is the number of the first one. -/
def placesAmong (first : Nat) : List Element → List (List Nat)
  | [] => []
  | e :: row => (places e).map (first :: ·) ++ placesAmong (first + 1) row

end

/-- The order of a document: a place comes before those inside it, and what is at or inside a child before what is at or inside a
later one. -/
inductive Precedes : List Nat → List Nat → Prop where
  | inside (place : List Nat) (i : Nat) (further : List Nat) : Precedes place (place ++ i :: further)
  | beside {i j : Nat} (parent left right : List Nat) : i < j → Precedes (parent ++ i :: left) (parent ++ j :: right)

namespace Precedes

variable {place later : List Nat}

theorem cons (h : Precedes place later) (i : Nat) : Precedes (i :: place) (i :: later) := by
  cases h with
  | inside _ j further => exact .inside (i :: place) j further
  | beside parent left right hlt => exact .beside (i :: parent) left right hlt

theorem ne (h : Precedes place later) : place ≠ later := by
  cases h with
  | inside => simp
  | beside _ _ _ hlt =>
    intro he
    rw [List.append_cancel_left_eq, List.cons.injEq] at he
    exact Nat.ne_of_lt hlt he.1

end Precedes

/-! ## The list of all elements -/

/-- The places of a row are those of its trees, with the number of the tree in front. -/
theorem mem_placesAmong_iff {first : Nat} {row : List Element} {place : List Nat} :
    place ∈ placesAmong first row ↔ ∃ i e inner, place = (first + i) :: inner ∧ row[i]? = some e ∧ inner ∈ e.places := by
  induction row generalizing first with
  | nil => simp [placesAmong]
  | cons e row ih =>
    rw [placesAmong, List.mem_append, List.mem_map, ih]
    constructor
    · rintro (⟨inner, hinner, rfl⟩ | ⟨i, e', inner, rfl, he, hinner⟩)
      · exact ⟨0, e, inner, rfl, rfl, hinner⟩
      · exact ⟨i + 1, e', inner, by rw [Nat.add_assoc, Nat.add_comm 1 i], he, hinner⟩
    · rintro ⟨i, e', inner, rfl, he, hinner⟩
      cases i with
      | zero =>
        cases he
        exact Or.inl ⟨inner, hinner, rfl⟩
      | succ i => exact Or.inr ⟨i, e', inner, by rw [Nat.add_assoc, Nat.add_comm 1 i], he, hinner⟩

theorem places_eq (e : Element) : e.places = [] :: placesAmong 0 e.children := by
  cases e
  rfl

/-- The places of a tree are those at which it has an element. -/
theorem mem_places_iff {e : Element} {place : List Nat} : place ∈ e.places ↔ (e.at? place).isSome := by
  induction place generalizing e with
  | nil =>
    rw [places_eq]
    exact iff_of_true List.mem_cons_self rfl
  | cons i place ih =>
    rw [places_eq, List.mem_cons, mem_placesAmong_iff, at?, Option.isSome_bind, Option.any_eq_true]
    constructor
    · rintro (hnil | ⟨j, child, inner, hplace, hchild, hinner⟩)
      · cases hnil
      · rw [Nat.zero_add, List.cons.injEq] at hplace
        obtain ⟨rfl, rfl⟩ := hplace
        exact ⟨child, hchild, ih.mp hinner⟩
    · rintro ⟨child, hchild, hsome⟩
      exact Or.inr ⟨i, child, place, by rw [Nat.zero_add], hchild, ih.mpr hsome⟩

mutual

/-- The list of all elements has the element at each place, in the order of the places. -/
theorem map_at?_places : (e : Element) → e.places.map e.at? = e.preorder.map some
  | ⟨name, attributes, text, children⟩ => by
    have hchildren := map_atAmong?_placesAmong [] children
    rw [preorder_mk, List.map_cons, ← hchildren, places, List.map_cons]
    refine congrArg (_ :: ·) (List.map_congr_left fun place hplace => ?_)
    obtain ⟨i, e, inner, rfl, -⟩ := mem_placesAmong_iff.mp hplace
    rfl

theorem map_atAmong?_placesAmong (front : List Element) :
    (row : List Element) → (placesAmong front.length row).map (atAmong? (front ++ row)) = (preorderAll row).map some
  | [] => rfl
  | e :: row => by
    -- A place numbers the trees from the first of the whole row, so the trees that were gone through are kept in front.
    have hrow := map_atAmong?_placesAmong (front ++ [e]) row
    rw [List.length_append, List.length_singleton, List.append_assoc, List.singleton_append] at hrow
    have he : ∀ place, atAmong? (front ++ e :: row) (front.length :: place) = e.at? place := by
      intro place
      rw [atAmong?, List.getElem?_append_right (Nat.le_refl _), Nat.sub_self]
      rfl
    rw [placesAmong, preorderAll_cons, List.map_append, List.map_append, hrow, List.map_map, ← map_at?_places e]
    exact congrArg (· ++ _) (List.map_congr_left fun place _ => he place)

end

mutual

/-- The places of a tree are in the order of the document. -/
theorem pairwise_places : (e : Element) → e.places.Pairwise Precedes
  | ⟨name, attributes, text, children⟩ => by
    rw [places, List.pairwise_cons]
    refine ⟨fun place hplace => ?_, pairwise_placesAmong 0 children⟩
    obtain ⟨i, e, inner, rfl, -⟩ := mem_placesAmong_iff.mp hplace
    exact .inside [] _ inner

theorem pairwise_placesAmong (first : Nat) : (row : List Element) → (placesAmong first row).Pairwise Precedes
  | [] => .nil
  | e :: row => by
    rw [placesAmong, List.pairwise_append]
    refine ⟨?_, pairwise_placesAmong (first + 1) row, ?_⟩
    · rw [List.pairwise_map]
      exact (pairwise_places e).imp fun h => h.cons first
    · intro place hplace later hlater
      obtain ⟨inner, -, rfl⟩ := List.mem_map.mp hplace
      obtain ⟨i, e', inner', rfl, -⟩ := mem_placesAmong_iff.mp hlater
      exact .beside [] inner inner' (by omega)

end

theorem nodup_places (e : Element) : e.places.Nodup :=
  (pairwise_places e).imp Precedes.ne

/-! ## The search -/

mutual

/-- The search finds what the list of all elements has first. -/
theorem find?_eq (name : String) : (e : Element) → e.find? name = e.preorder.find? (·.localName == name)
  | ⟨own, attributes, text, children⟩ => by
    rw [find?, preorder_mk, findAmong?_eq name children]
    by_cases h : localPart own = name
    · rw [if_pos h, List.find?_cons_of_pos (by rw [localName, h, beq_self_eq_true])]
    · rw [if_neg h, List.find?_cons_of_neg (by rwa [localName, beq_iff_eq])]

theorem findAmong?_eq (name : String) :
    (row : List Element) → findAmong? name row = (preorderAll row).find? (·.localName == name)
  | [] => rfl
  | e :: row => by rw [findAmong?, preorderAll_cons, List.find?_append, find?_eq name e, findAmong?_eq name row]

end

/-- The local part of a name is what stands behind its last colon, and the whole name if it has none. -/
theorem localPart_cases (name : String) :
    ':' ∉ (localPart name).toList ∧ (name = localPart name ∨ ∃ space, name = space ++ ":" ++ localPart name) := by
  have hlocal : (localPart name).toList = (name.toList.reverse.takeWhile (· != ':')).reverse := by
    rw [localPart, String.toList_ofList]
  have hparts : (name.toList.reverse.dropWhile (· != ':')).reverse ++ (localPart name).toList = name.toList := by
    rw [hlocal, ← List.reverse_append, List.takeWhile_append_dropWhile, List.reverse_reverse]
  have hstop := List.head?_dropWhile_not (· != ':') name.toList.reverse
  refine ⟨fun hmem => ?_, ?_⟩
  · rw [hlocal, List.mem_reverse] at hmem
    exact absurd (List.mem_takeWhile_imp hmem) (by decide)
  · cases hspace : name.toList.reverse.dropWhile (· != ':') with
    | nil =>
      rw [hspace, List.reverse_nil, List.nil_append] at hparts
      exact Or.inl (String.toList_injective hparts.symm)
    | cons c space =>
      rw [hspace] at hparts hstop
      obtain rfl : c = ':' := by simpa using hstop
      refine Or.inr ⟨String.ofList space.reverse, String.toList_injective ?_⟩
      rw [← hparts]
      simp

/-- The two ways through a tree, in five parts. For every tree:
1. The list of all elements has exactly one element for each place of the tree, and it is the one at that place.
2. The places come in the order of the document: each element before those inside it, and all that is inside a child before its
   later siblings and what is inside them.
3. The local name of an element is what stands behind the last colon of its name, and the whole name if it has none.
4. The search for a local name finds the first element of the list that has it.
5. It finds none if and only if no element of the list has it. -/
theorem find?_of_preorder (root : Element) :
    (root.preorder.map some = root.places.map root.at? ∧ root.places.Nodup ∧
        ∀ place, place ∈ root.places ↔ (root.at? place).isSome) ∧
      root.places.Pairwise Precedes ∧
      (∀ e : Element, ':' ∉ e.localName.toList ∧ (e.name = e.localName ∨ ∃ space, e.name = space ++ ":" ++ e.localName)) ∧
      (∀ name, root.find? name = root.preorder.find? (·.localName == name)) ∧
      ∀ name, root.find? name = none ↔ ∀ e ∈ root.preorder, e.localName ≠ name := by
  refine ⟨⟨(map_at?_places root).symm, nodup_places root, fun _ => mem_places_iff⟩, pairwise_places root,
    fun e => localPart_cases e.name, fun name => find?_eq name root, fun name => ?_⟩
  rw [find?_eq, List.find?_eq_none]
  simp only [beq_iff_eq, ne_eq]

end StreamAuth.Xml.Element
