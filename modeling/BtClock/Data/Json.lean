/-!
# JSON values

A value of the JSON library.  An object keeps its members in the order of the text, and a
name may occur twice.
-/

namespace BtClock

inductive Json
  | null
  | bool (b : Bool)
  | number (d : Float)
  | string (s : String)
  | array (items : List Json)
  | object (members : List (String × Json))

namespace Json

/-- The first member of that name. -/
def getObjectItem : Json → String → Option Json
  | .object members, key => (members.find? fun m => m.1 == key).map Prod.snd
  | _, _ => none

def isObject : Json → Bool
  | .object _ => true
  | _ => false

theorem mem_of_getObjectItem {members : List (String × Json)} {key : String} {v : Json}
    (h : (object members).getObjectItem key = some v) : (key, v) ∈ members := by
  obtain ⟨m, hm, rfl⟩ := Option.map_eq_some_iff.mp h
  have hkey : m.1 = key := by simpa using List.find?_some hm
  subst hkey
  exact List.mem_of_find?_eq_some hm

theorem ne_of_getObjectItem_eq_none {members : List (String × Json)} {key : String}
    (h : (object members).getObjectItem key = none) {m : String × Json} (hm : m ∈ members) :
    m.1 ≠ key := by
  simp only [getObjectItem, Option.map_eq_none_iff, List.find?_eq_none] at h
  simpa using h m hm

end Json

end BtClock
