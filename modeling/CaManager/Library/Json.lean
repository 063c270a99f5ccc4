import Mathlib.Data.List.Basic
import Mathlib.Data.Rat.Init

/-!
# JSON values

Values as a scripting language reads them from JSON text: an object is a dictionary with its
members in order. The questions are those such a language asks without looking at the type
first, and some values make them raise.
-/

namespace CaManager.Library

inductive Json
  | null
  | bool (value : Bool)
  | number (value : ℚ)
  | text (value : String)
  | array (elements : List Json)
  | object (members : List (String × Json))

abbrev Members := List (String × Json)

namespace Json

mutual

def decEq : (v w : Json) → Decidable (v = w)
  | null, null => isTrue rfl
  | bool a, bool b => decidable_of_iff (a = b) (by simp)
  | number a, number b => decidable_of_iff (a = b) (by simp)
  | text a, text b => decidable_of_iff (a = b) (by simp)
  | array a, array b => @decidable_of_iff _ (a = b) (by simp) (decEqElements a b)
  | object a, object b => @decidable_of_iff _ (a = b) (by simp) (decEqMembers a b)
  | null, bool _ | null, number _ | null, text _ | null, array _ | null, object _
  | bool _, null | bool _, number _ | bool _, text _ | bool _, array _ | bool _, object _
  | number _, null | number _, bool _ | number _, text _ | number _, array _
  | number _, object _ | text _, null | text _, bool _ | text _, number _ | text _, array _
  | text _, object _ | array _, null | array _, bool _ | array _, number _ | array _, text _
  | array _, object _ | object _, null | object _, bool _ | object _, number _
  | object _, text _ | object _, array _ => isFalse nofun

def decEqElements : (vs ws : List Json) → Decidable (vs = ws)
  | [], [] => isTrue rfl
  | v :: vs, w :: ws =>
    @decidable_of_iff _ (v = w ∧ vs = ws) (by simp)
      (@instDecidableAnd _ _ (decEq v w) (decEqElements vs ws))
  | [], _ :: _ | _ :: _, [] => isFalse nofun

def decEqMembers : (ms ns : List (String × Json)) → Decidable (ms = ns)
  | [], [] => isTrue rfl
  | (k, v) :: ms, (l, w) :: ns =>
    @decidable_of_iff _ (k = l ∧ v = w ∧ ms = ns) (by simp [and_assoc])
      (@instDecidableAnd _ _ _ (@instDecidableAnd _ _ (decEq v w) (decEqMembers ms ns)))
  | [], _ :: _ | _ :: _, [] => isFalse nofun

end

instance : DecidableEq Json := decEq

def isText (name : String) : Json → Bool
  | text value => value = name
  | _ => false

def text? : Json → Option String
  | text value => some value
  | _ => none

/-- The texts that searching it can find; a value that cannot be searched has none. -/
def names : Json → Option (List String)
  | array elements => some (elements.filterMap text?)
  | object members => some (members.map Prod.fst)
  | _ => none

def truthy : Json → Bool
  | null => false
  | bool value => value
  | number value => value ≠ 0
  | text value => value ≠ ""
  | array elements => !elements.isEmpty
  | object members => !members.isEmpty

def hashable : Json → Bool
  | array _ => false
  | object _ => false
  | _ => true

@[simp] theorem names_array_text (ns : List String) : (array (ns.map text)).names = some ns := by
  have htext : text? ∘ text = some := rfl
  rw [names, List.filterMap_map, htext, List.filterMap_some]

end Json

/-- A text column for JSON, by what reading it gives. The text of a JSON text is `quoted`. -/
inductive JsonText
  | empty
  | unreadable
  | value (v : Json)
  | quoted (inner : JsonText)

end CaManager.Library
