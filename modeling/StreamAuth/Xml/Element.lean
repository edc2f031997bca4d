/-!
# Elements

The tree of a document: names as they are written, attributes in order, the text directly inside an element, and its child
elements. Two ways lead through a tree: the list of all its elements, parents before children, and the search for the first
element of a local name.
-/

namespace StreamAuth.Xml

/-- An element with all that is inside it. -/
structure Element where
  /-- The name as written, with its namespace part. -/
  name : String
  /-- The attributes in document order, with references resolved. -/
  attributes : List (String × String) := []
  /-- The texts directly inside the element, one after another. -/
  text : String := ""
  /-- The elements directly inside the element, in order. -/
  children : List Element := []
  deriving BEq, Repr, Inhabited

namespace Element

/-- The part of a name after its last colon. -/
def localPart (name : String) : String :=
  String.ofList (name.toList.reverse.takeWhile (· != ':')).reverse

/-- The name without its namespace part. -/
def localName (e : Element) : String :=
  localPart e.name

/-- The value of the attribute whose name is written so. -/
def attribute? (e : Element) (name : String) : Option String :=
  (e.attributes.find? (·.1 == name)).map (·.2)

mutual

/-- The element and all elements inside it, parents before children, with `later` after them. -/
def preorderOnto (later : List Element) : Element → List Element
  | ⟨name, attributes, text, children⟩ => ⟨name, attributes, text, children⟩ :: preorderAllOnto later children

/-- The elements of a row of trees, tree by tree, with `later` after them. -/
def preorderAllOnto (later : List Element) : List Element → List Element
  | [] => later
  | e :: rest => preorderOnto (preorderAllOnto later rest) e

end

/-- The element and all elements inside it, parents before children. -/
def preorder (e : Element) : List Element :=
  preorderOnto [] e

/-- The elements of a row of trees, tree by tree. -/
def preorderAll (row : List Element) : List Element :=
  preorderAllOnto [] row

mutual

theorem preorderOnto_eq (later : List Element) : (e : Element) → preorderOnto later e = preorder e ++ later
  | ⟨name, attributes, text, children⟩ => by
    simp only [preorder, preorderOnto]
    rw [preorderAllOnto_eq later children, preorderAllOnto_eq [] children]
    simp

theorem preorderAllOnto_eq (later : List Element) :
    (row : List Element) → preorderAllOnto later row = preorderAll row ++ later
  | [] => rfl
  | e :: rest => by
    simp only [preorderAll, preorderAllOnto]
    rw [preorderOnto_eq (preorderAllOnto later rest) e, preorderOnto_eq (preorderAllOnto [] rest) e,
      preorderAllOnto_eq later rest]
    simp [preorderAll]

end

/-- An element comes first, and then its children with all that is inside them. -/
theorem preorder_mk (name : String) (attributes : List (String × String)) (text : String) (children : List Element) :
    preorder ⟨name, attributes, text, children⟩ = ⟨name, attributes, text, children⟩ :: preorderAll children := by
  simp only [preorder, preorderOnto, preorderAll]

theorem preorderAll_nil : preorderAll [] = [] := rfl

theorem preorderAll_cons (e : Element) (rest : List Element) : preorderAll (e :: rest) = preorder e ++ preorderAll rest := by
  simp only [preorderAll, preorderAllOnto]
  exact preorderOnto_eq _ e

mutual

/-- The first element with this local name, the element itself included. -/
def find? (localName : String) : Element → Option Element
  | ⟨name, attributes, text, children⟩ =>
    if localPart name = localName then some ⟨name, attributes, text, children⟩
    else findAmong? localName children

/-- The first element with this local name in a row of trees. -/
def findAmong? (localName : String) : List Element → Option Element
  | [] => none
  | e :: rest => (find? localName e).or (findAmong? localName rest)

end

end Element

end StreamAuth.Xml
