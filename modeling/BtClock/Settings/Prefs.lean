import Mathlib.Logic.Function.Basic

/-!
# The preference store

The settings namespace of the flash store.  A key holds a string or a 32-bit number; the
readers fall back to their default when the key is absent or holds the other type.  A
string is a byte string, with one character for each byte, and every write succeeds.
-/

namespace BtClock

namespace Settings

inductive PrefValue
  | str (s : String)
  | u32 (v : UInt32)
  deriving DecidableEq, Repr

abbrev Prefs := String → Option PrefValue

namespace Prefs

def empty : Prefs := fun _ => none

def getString (prefs : Prefs) (key defaultValue : String) : String :=
  match prefs key with
  | some (.str s) => s
  | _ => defaultValue

def getU32 (prefs : Prefs) (key : String) (defaultValue : UInt32) : UInt32 :=
  match prefs key with
  | some (.u32 v) => v
  | _ => defaultValue

def getI32 (prefs : Prefs) (key : String) (defaultValue : Int32) : Int32 :=
  (prefs.getU32 key defaultValue.toUInt32).toInt32

def getU8 (prefs : Prefs) (key : String) (defaultValue : UInt8) : UInt8 :=
  (prefs.getU32 key defaultValue.toUInt32 &&& 0xFF).toUInt8

def getBool (prefs : Prefs) (key : String) (defaultValue : Bool) : Bool :=
  prefs.getU32 key (if defaultValue then 1 else 0) ≠ 0

/-- The readers look at the value of their key only. -/
theorem getU32_congr {prefs prefs' : Prefs} {key : String} (h : prefs key = prefs' key)
    (d : UInt32) : prefs.getU32 key d = prefs'.getU32 key d := by
  simp only [getU32, h]

theorem getString_congr {prefs prefs' : Prefs} {key : String} (h : prefs key = prefs' key)
    (d : String) : prefs.getString key d = prefs'.getString key d := by
  simp only [getString, h]

theorem getBool_congr {prefs prefs' : Prefs} {key : String} (h : prefs key = prefs' key)
    (d : Bool) : prefs.getBool key d = prefs'.getBool key d := by
  simp only [getBool, getU32_congr h]

theorem getI32_congr {prefs prefs' : Prefs} {key : String} (h : prefs key = prefs' key)
    (d : Int32) : prefs.getI32 key d = prefs'.getI32 key d := by
  simp only [getI32, getU32_congr h]

theorem getU8_congr {prefs prefs' : Prefs} {key : String} (h : prefs key = prefs' key)
    (d : UInt8) : prefs.getU8 key d = prefs'.getU8 key d := by
  simp only [getU8, getU32_congr h]

end Prefs

/-- A call of the writer. -/
inductive PrefsWrite
  | setString (key value : String)
  | setU32 (key : String) (value : UInt32)
  | setI32 (key : String) (value : Int32)
  | setU8 (key : String) (value : UInt8)
  | setBool (key : String) (value : Bool)
  | remove (key : String)
  deriving DecidableEq, Repr

namespace PrefsWrite

def key : PrefsWrite → String
  | .setString key _ => key
  | .setU32 key _ => key
  | .setI32 key _ => key
  | .setU8 key _ => key
  | .setBool key _ => key
  | .remove key => key

/-- What the key holds after the write. -/
def stored : PrefsWrite → Option PrefValue
  | .setString _ value => some (.str value)
  | .setU32 _ value => some (.u32 value)
  | .setI32 _ value => some (.u32 value.toUInt32)
  | .setU8 _ value => some (.u32 value.toUInt32)
  | .setBool _ value => some (.u32 (if value then 1 else 0))
  | .remove _ => none

def apply (w : PrefsWrite) (prefs : Prefs) : Prefs :=
  Function.update prefs w.key w.stored

@[simp]
theorem apply_key (w : PrefsWrite) (prefs : Prefs) : w.apply prefs w.key = w.stored :=
  Function.update_self ..

theorem apply_of_ne {w : PrefsWrite} {key : String} (h : key ≠ w.key) (prefs : Prefs) :
    w.apply prefs key = prefs key :=
  Function.update_of_ne h ..

end PrefsWrite

/-! ### A value reads back as it was written -/

theorem getString_setString (key value d : String) (prefs : Prefs) :
    ((PrefsWrite.setString key value).apply prefs).getString key d = value := by
  have h := PrefsWrite.apply_key (.setString key value) prefs
  simp only [PrefsWrite.key, PrefsWrite.stored] at h
  simp only [Prefs.getString, h]

theorem getU32_of_stored {prefs : Prefs} {key : String} {v : UInt32}
    (h : prefs key = some (.u32 v)) (d : UInt32) : prefs.getU32 key d = v := by
  simp only [Prefs.getU32, h]

theorem getU32_setU32 (key : String) (value d : UInt32) (prefs : Prefs) :
    ((PrefsWrite.setU32 key value).apply prefs).getU32 key d = value :=
  getU32_of_stored (PrefsWrite.apply_key (.setU32 key value) prefs) d

theorem getI32_setI32 (key : String) (value d : Int32) (prefs : Prefs) :
    ((PrefsWrite.setI32 key value).apply prefs).getI32 key d = value := by
  have h := getU32_of_stored (PrefsWrite.apply_key (.setI32 key value) prefs) d.toUInt32
  simp only [PrefsWrite.key] at h
  simp [Prefs.getI32, h]

theorem getU8_setU8 (key : String) (value d : UInt8) (prefs : Prefs) :
    ((PrefsWrite.setU8 key value).apply prefs).getU8 key d = value := by
  have h := getU32_of_stored (PrefsWrite.apply_key (.setU8 key value) prefs) d.toUInt32
  simp only [PrefsWrite.key] at h
  simp only [Prefs.getU8, h, UInt32.toUInt8_and, UInt8.toUInt8_toUInt32]
  exact UInt8.and_neg_one

theorem getBool_setBool (key : String) (value d : Bool) (prefs : Prefs) :
    ((PrefsWrite.setBool key value).apply prefs).getBool key d = value := by
  have h := getU32_of_stored (PrefsWrite.apply_key (.setBool key value) prefs)
    (if d then 1 else 0)
  simp only [PrefsWrite.key] at h
  cases value <;> simp [Prefs.getBool, h]

/-- The store after a list of writes. -/
def applyWrites (prefs : Prefs) (ws : List PrefsWrite) : Prefs :=
  ws.foldl (fun prefs w => w.apply prefs) prefs

@[simp]
theorem applyWrites_nil (prefs : Prefs) : applyWrites prefs [] = prefs :=
  rfl

@[simp]
theorem applyWrites_cons (prefs : Prefs) (w : PrefsWrite) (ws : List PrefsWrite) :
    applyWrites prefs (w :: ws) = applyWrites (w.apply prefs) ws :=
  rfl

/-- A key which no write names keeps its value. -/
theorem applyWrites_of_notMem {ws : List PrefsWrite} {key : String}
    (h : ∀ w ∈ ws, w.key ≠ key) (prefs : Prefs) : applyWrites prefs ws key = prefs key := by
  induction ws generalizing prefs with
  | nil => rfl
  | cons w ws ih =>
      rw [applyWrites_cons, ih fun v hv => h v (List.mem_cons_of_mem _ hv)]
      exact PrefsWrite.apply_of_ne (h w List.mem_cons_self).symm prefs

end Settings

end BtClock
