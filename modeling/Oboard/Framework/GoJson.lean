import Oboard.Framework.GoNumbers
import Oboard.Framework.Table

namespace Oboard.GoJson

open GoNumbers List

/-- A JSON value as the scanner sees it: numbers keep their literal, strings are decoded and
remember whether they were spelled with escapes, and members keep their order and repetitions. -/
inductive Json where
  | null
  | bool (b : Bool)
  | num (literal : List Char)
  | str (escaped : Bool) (text : String)
  | arr (items : List Json)
  | obj (members : List (String×Json))

/-- A stored text: empty, not JSON, or a value. The flag tells the compact spelling that the
encoder writes. -/
inductive Document where
  | empty
  | invalid
  | value (compact : Bool) (json : Json)

/-- A field of a structure is found under every spelling that folds to its name. -/
def foldName (key : String) : String :=
  String.ofList (key.toList.map (fun c =>
    if c.toNat=0x17F then 's' else if c.toNat=0x212A then 'k' else lowerChar c))

/-- A slice that is decoded into keeps the elements behind its end. -/
structure Slice (α : Type) where
  mem : List α := []
  len : Nat := 0

def Slice.toList {α : Type} (s : Slice α) : List α := s.mem.take s.len

section decoding

variable {α : Type}

/-- Null leaves a value as it is. -/
def decodeString (old : String) : Json → Option String
  | .null => some old
  | .str _ s => some s
  | _ => none

def decodeBool (old : Bool) : Json → Option Bool
  | .null => some old
  | .bool b => some b
  | _ => none

def decodeInt (old : Int) : Json → Option Int
  | .null => some old
  | .num literal => parseInt false literal
  | _ => none

/-- Each item is decoded into the element that stands at its place. -/
def decodeItems (elem : α → Json → Option α) (zero : α) : List α → List Json → Option (List α)
  | mem,[] => some mem
  | mem,j::js =>
    match elem (mem.headD zero) j with
    | none => none
    | some a => (decodeItems elem zero mem.tail js).map (a::·)

/-- Null and the empty array drop the memory of a slice. -/
def decodeSlice (elem : α → Json → Option α) (zero : α) (old : Slice α) : Json → Option (Slice α)
  | .null => some {}
  | .arr [] => some {}
  | .arr items => (decodeItems elem zero old.mem items).map (⟨·,items.length⟩)
  | _ => none

/-- A structure takes the members one after another. A value of a wrong type is an error, which
is reported at the end but does not stop the others. -/
def decodeStruct (field : α → String → Json → Option α) (old : α) : Json → Option α
  | .null => some old
  | .obj members => members.foldlM (fun a m => field a (foldName m.1) m.2) old
  | _ => none

/-- Null leaves no structure behind a pointer. Otherwise the old one is decoded into. -/
def decodePointer (elem : α → Json → Option α) (zero : α) (old : Option α) :
    Json → Option (Option α)
  | .null => some none
  | j => (elem (old.getD zero) j).map some

/-- Every member of a map starts from the zero value, and the last one of a key stays. -/
def decodeMap (elem : Json → Option α) (old : Table String α) : Json → Option (Table String α)
  | .null => some ∅
  | .obj members => members.foldlM (fun t m => (elem m.2).map (fun a => t.insert m.1 a)) old
  | _ => none

/-- A top-level map of raw values. -/
def rawMap : Json → Option (Table String Json) := decodeMap some ∅

theorem rawMap_obj (members) : rawMap (.obj members)=some (Table.putAll ∅ members) := by
  unfold rawMap decodeMap Table.putAll
  generalize (∅ : Table String Json)=t
  induction members generalizing t with
  | nil => rfl
  | cons m members ih => exact ih (t.insert m.1 m.2)

variable {elem : α → Json → Option α}

theorem decodeItems_map {bs : List β} (h : ∀b∈bs,∀old,elem old (f b)=some (g b)) :
    decodeItems elem zero [] (bs.map f)=some (bs.map g) := by
  induction bs with
  | nil => rfl
  | cons b bs ih =>
    rw [map_cons,decodeItems,h b mem_cons_self]
    dsimp only
    rw [tail_nil,ih (fun c hc => h c (mem_cons_of_mem _ hc))]
    rfl

theorem decodeSlice_map (zero) {bs : List β} (h : ∀b∈bs,∀old,elem old (f b)=some (g b)) :
    ∃s,decodeSlice elem zero {} (.arr (bs.map f))=some s ∧ s.toList=bs.map g := by
  cases bs with
  | nil => exact ⟨{},rfl,rfl⟩
  | cons b bs =>
    refine ⟨⟨(b::bs).map g,(b::bs).length⟩,?_,?_⟩
    · have hitems : decodeItems elem zero [] ((b::bs).map f)=_ := decodeItems_map h
      rw [map_cons] at hitems ⊢
      rw [decodeSlice]
      · rw [hitems]
        simp
      · simp
    · simp [Slice.toList]

end decoding

end Oboard.GoJson
