/-
This file defines names and the table that holds their texts. A name is a position in the table,
so names compare without looking at text. Interning one text twice yields one name, and position
zero always belongs to the empty text.
-/

namespace TreeLowering.Tree

/-- An identifier: the position of its text in a `NameTable`. -/
structure Name where
  index : Nat
deriving DecidableEq, Repr, Inhabited

/-- The texts of all names met so far, in the order of their first use. -/
structure NameTable where
  texts : Array String
deriving DecidableEq, Repr

namespace NameTable

/-- The table every run starts from: it holds the empty text only. -/
def initial : NameTable := ⟨#[""]⟩

instance : Inhabited NameTable := ⟨initial⟩

/-- The name of `text`, added at the end of the table when it is new. -/
def intern (table : NameTable) (text : String) : Name × NameTable :=
  match table.texts.findIdx? (· == text) with
  | some index => (⟨index⟩, table)
  | none => (⟨table.texts.size⟩, ⟨table.texts.push text⟩)

/-- The text of a name; a name the table does not hold reads as the empty text. -/
def text (table : NameTable) (name : Name) : String :=
  table.texts[name.index]?.getD ""

/-- Reading a name gives back the text it was made from. -/
@[simp] theorem text_intern (table : NameTable) (text : String) :
    (table.intern text).2.text (table.intern text).1 = text := by
  unfold intern
  split
  · next index found =>
    obtain ⟨bound, matched, _⟩ := Array.findIdx?_eq_some_iff_getElem.1 found
    simp_all [NameTable.text]
  · simp [NameTable.text]

/-- How many texts the table holds, the empty one included. -/
def size (table : NameTable) : Nat := table.texts.size

end NameTable

end TreeLowering.Tree
