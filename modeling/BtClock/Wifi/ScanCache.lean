import BtClock.Coding.JsonText
import BtClock.Coding.SelfDelimiting
import BtClock.Nostr.RequestFrame
import BtClock.Transition.History
import BtClock.Webserver.ShowRequests
import BtClock.Wifi.Station
import Mathlib.Data.List.Nodup

/-!
# The networks of the portal

The station scans in the background, and the task of the event loop stores what a scan found.  The
portal answers from what is stored.
-/

namespace BtClock

/-! ### Keeping the first of each key -/

namespace FirstOfEach

variable {α κ : Type*} [DecidableEq κ] {key : α → κ}

def keepFirst (key : α → κ) (uniq : List α) (e : α) : List α :=
  if uniq.any fun u => key u == key e then uniq else uniq ++ [e]

def firstOfEach (key : α → κ) (out : List α) : List α :=
  out.foldl (keepFirst key) []

theorem firstOfEach_append_singleton (out : List α) (e : α) :
    firstOfEach key (out ++ [e]) = keepFirst key (firstOfEach key out) e := by
  simp [firstOfEach]

theorem any_iff {uniq : List α} {e : α} :
    (uniq.any fun u => key u == key e) = true ↔ ∃ u ∈ uniq, key u = key e := by
  simp

theorem firstOfEach_sublist (out : List α) : (firstOfEach key out).Sublist out := by
  induction out using List.reverseRecOn with
  | nil => exact List.Sublist.refl _
  | append_singleton out e ih =>
      rw [firstOfEach_append_singleton, keepFirst]
      split
      · exact ih.trans (List.sublist_append_left out [e])
      · exact ih.append (List.Sublist.refl [e])

theorem nodup_map_firstOfEach (out : List α) : ((firstOfEach key out).map key).Nodup := by
  induction out using List.reverseRecOn with
  | nil => exact List.nodup_nil
  | append_singleton out e ih =>
      rw [firstOfEach_append_singleton, keepFirst]
      split
      · exact ih
      · next hnew =>
        rw [any_iff] at hnew
        rw [List.map_append, List.map_singleton]
        refine List.nodup_append.mpr ⟨ih, List.nodup_singleton _, ?_⟩
        intro k hk k' hk' heq
        obtain ⟨u, hu, rfl⟩ := List.mem_map.mp hk
        exact hnew ⟨u, hu, heq.trans (List.mem_singleton.mp hk')⟩

/-- In an ordered list the one which is kept comes first in the order as well. -/
theorem exists_mem_firstOfEach {r : α → α → Prop} {out : List α} (hrefl : ∀ a, r a a)
    (hout : out.Pairwise r) {e : α} (he : e ∈ out) :
    ∃ u ∈ firstOfEach key out, key u = key e ∧ r u e := by
  induction out using List.reverseRecOn with
  | nil => cases he
  | append_singleton out f ih =>
      obtain ⟨hpairs, -, hlast⟩ := List.pairwise_append.mp hout
      rw [firstOfEach_append_singleton, keepFirst]
      rcases List.mem_append.mp he with hmem | hmem
      · obtain ⟨u, hu, hkey, hle⟩ := ih hpairs hmem
        split
        · exact ⟨u, hu, hkey, hle⟩
        · exact ⟨u, List.mem_append_left _ hu, hkey, hle⟩
      · obtain rfl := List.mem_singleton.mp hmem
        split
        · next hseen =>
          obtain ⟨u, hu, hkey⟩ := any_iff.mp hseen
          exact ⟨u, hu, hkey, hlast u ((firstOfEach_sublist out).subset hu) e hmem⟩
        · exact ⟨e, List.mem_append_right _ hmem, rfl, hrefl e⟩

end FirstOfEach

namespace Wifi

open FirstOfEach JsonText Nostr Nostr.JsonEmit Nostr.RequestFrame ShowText Transition

/-! ### What a scan found -/

/-- `wifi_ap_record_t`, as much of it as is read. -/
structure ApRecord where
  /-- The array of the driver with its NUL. -/
  ssid : List UInt8
  rssi : ℤ
  authmode : ℕ
  deriving DecidableEq, Repr

/-- `WIFI_AUTH_OPEN` -/
def wifiAuthOpen : ℕ := 0

def kMaxRecords : ℕ := 32

structure WifiScanEntry where
  ssid : CString
  rssi : ℤ
  secured : Bool
  deriving DecidableEq, Repr

/-- None for a hidden network. -/
def scanEntry? (r : ApRecord) : Option WifiScanEntry :=
  let ssid := r.ssid.takeWhile (· != 0)
  if ssid = [] then none else some ⟨ssid, r.rssi, r.authmode != wifiAuthOpen⟩

def scanEntries (records : List ApRecord) : List WifiScanEntry :=
  (records.take kMaxRecords).filterMap scanEntry?

/-- `std::sort`, which need not be stable, with the strongest network first. -/
structure StdSort where
  sort : List WifiScanEntry → List WifiScanEntry
  perm : ∀ out, (sort out).Perm out
  sorted : ∀ out, (sort out).Pairwise fun a b => b.rssi ≤ a.rssi

def networks (std : StdSort) (records : List ApRecord) : List WifiScanEntry :=
  firstOfEach WifiScanEntry.ssid (std.sort (scanEntries records))

/-- The list has every network of the scan once, at the strongest of its records, and the strongest
network first. -/
structure Lists (records : List ApRecord) (nets : List WifiScanEntry) : Prop where
  nodup : (nets.map WifiScanEntry.ssid).Nodup
  ordered : nets.Pairwise fun a b => b.rssi ≤ a.rssi
  found : ∀ n ∈ nets, n ∈ scanEntries records
  strongest : ∀ e ∈ scanEntries records, ∃ n ∈ nets, n.ssid = e.ssid ∧ e.rssi ≤ n.rssi

theorem lists_networks (std : StdSort) (records : List ApRecord) :
    Lists records (networks std records) where
  nodup := nodup_map_firstOfEach _
  ordered := (std.sorted _).sublist (firstOfEach_sublist _)
  found := fun _ hn => (std.perm _).subset ((firstOfEach_sublist _).subset hn)
  strongest := fun _ he =>
    exists_mem_firstOfEach (fun a => le_refl a.rssi) (std.sorted _)
      ((std.perm _).symm.subset he)

/-! ### The answer of the portal -/

/-- Two digits of base sixteen, as `%02x` prints them. -/
def hexDigits (c : UInt8) : List Char :=
  [Nat.digitChar (c.toNat / 16), Nat.digitChar (c.toNat % 16)]

def jsonEscapeByte (c : UInt8) : List Char :=
  if c = 0x22 then ['\\', '"']
  else if c = 0x5C then ['\\', '\\']
  else if c = 0x0A then ['\\', 'n']
  else if c = 0x0D then ['\\', 'r']
  else if c = 0x09 then ['\\', 't']
  else if c < 0x20 then ['\\', 'u', '0', '0'] ++ hexDigits c
  else [charOfByte c]

def jsonEscape (s : List UInt8) : List Char :=
  s.flatMap jsonEscapeByte

/-- `std::to_string` -/
def toStringInt (n : ℤ) : List Char :=
  if n < 0 then '-' :: appendUint n.natAbs else appendUint n.natAbs

def boolText (b : Bool) : List Char :=
  if b then ['t', 'r', 'u', 'e'] else ['f', 'a', 'l', 's', 'e']

/-- `{"ssid":"` -/
def kSsidHead : List Char :=
  ['{', '"', 's', 's', 'i', 'd', '"', ':', '"']

/-- `","rssi":` -/
def kRssiHead : List Char :=
  ['"', ',', '"', 'r', 's', 's', 'i', '"', ':']

/-- `,"secure":` -/
def kSecureHead : List Char :=
  [',', '"', 's', 'e', 'c', 'u', 'r', 'e', '"', ':']

/-- `{"ready":` -/
def kReadyHead : List Char :=
  ['{', '"', 'r', 'e', 'a', 'd', 'y', '"', ':']

/-- `,"scan":[` -/
def kScanHead : List Char :=
  [',', '"', 's', 'c', 'a', 'n', '"', ':', '[']

def entryText (n : WifiScanEntry) : List Char :=
  kSsidHead ++ jsonEscape n.ssid ++ kRssiHead ++ toStringInt n.rssi ++ kSecureHead ++
    boolText n.secured ++ ['}']

/-- The body of `HandleScan`. -/
def scanBody (ready : Bool) (nets : List WifiScanEntry) : List Char :=
  kReadyHead ++ boolText ready ++ kScanHead ++ joinComma (nets.map entryText) ++ [']', '}']

/-! ### Reading the answer -/

/-- The byte whose escape a text begins with. -/
def readEscape : List Char → Option (UInt8 × List Char)
  | '\\' :: 'u' :: _ :: _ :: h :: l :: rest =>
    some (UInt8.ofNat (digitOf h * 16 + digitOf l), rest)
  | '\\' :: 'n' :: rest => some (0x0A, rest)
  | '\\' :: 'r' :: rest => some (0x0D, rest)
  | '\\' :: 't' :: rest => some (0x09, rest)
  | '\\' :: c :: rest => some (byteOfChar c, rest)
  | c :: rest => some (byteOfChar c, rest)
  | [] => none
where
  digitOf (c : Char) : ℕ := (JsonText.hexValue c).getD 0

theorem readEscape_digits : ∀ n < 32,
    UInt8.ofNat (readEscape.digitOf (Nat.digitChar (n / 16)) * 16 +
      readEscape.digitOf (Nat.digitChar (n % 16))) = UInt8.ofNat n := by
  decide

theorem charOfByte_injective : Function.Injective charOfByte := by
  intro b c h
  rw [← byteOfChar_charOfByte b, h, byteOfChar_charOfByte]

theorem readEscape_jsonEscapeByte (c : UInt8) (rest : List Char) :
    readEscape (jsonEscapeByte c ++ rest) = some (c, rest) := by
  unfold jsonEscapeByte
  split
  · next h => rw [h]; rfl
  split
  · next h => rw [h]; rfl
  split
  · next h => rw [h]; rfl
  split
  · next h => rw [h]; rfl
  split
  · next h => rw [h]; rfl
  split
  · next h =>
    have hlt : c.toNat < 32 := UInt8.lt_iff_toNat_lt.mp h
    have hread := readEscape_digits c.toNat hlt
    rw [UInt8.ofNat_toNat] at hread
    simpa [readEscape, hexDigits] using hread
  · next hslash _ _ _ _ =>
    have hne : charOfByte c ≠ '\\' := fun heq => hslash (charOfByte_injective heq)
    rw [List.singleton_append, readEscape, byteOfChar_charOfByte]
    all_goals
      intros
      exact hne ‹_›

theorem exists_cons_jsonEscapeByte (c : UInt8) :
    ∃ d cs, jsonEscapeByte c = d :: cs ∧ d ≠ '"' := by
  by_cases hquote : c = 0x22
  · exact ⟨'\\', ['"'], by rw [hquote]; rfl, by decide⟩
  · unfold jsonEscapeByte
    rw [if_neg hquote]
    have hne : charOfByte c ≠ '"' := fun heq => hquote (charOfByte_injective heq)
    split_ifs
    · exact ⟨_, _, rfl, by decide⟩
    · exact ⟨_, _, rfl, by decide⟩
    · exact ⟨_, _, rfl, by decide⟩
    · exact ⟨_, _, rfl, by decide⟩
    · exact ⟨_, _, rfl, by decide⟩
    · exact ⟨_, _, rfl, hne⟩

theorem selfDelimiting_jsonEscape : SelfDelimiting fun s => jsonEscape s ++ ['"'] :=
  (SelfDelimiting.of_read readEscape_jsonEscapeByte).flatMap_close exists_cons_jsonEscapeByte

theorem appendUint_injective : Function.Injective appendUint := by
  intro a b h
  rw [← digitsValue_appendUint a, h, digitsValue_appendUint]

theorem minus_notMem_appendUint (n : ℕ) : '-' ∉ appendUint n :=
  fun h => absurd (isDigit_of_mem_appendUint h) (by decide)

theorem toStringInt_injective : Function.Injective toStringInt := by
  intro a b h
  unfold toStringInt at h
  split_ifs at h with ha hb hb
  · have habs := appendUint_injective (List.cons.inj h).2
    omega
  · exact absurd (h ▸ List.mem_cons_self) (minus_notMem_appendUint b.natAbs)
  · exact absurd (h.symm ▸ List.mem_cons_self) (minus_notMem_appendUint a.natAbs)
  · have habs := appendUint_injective h
    omega

theorem delimitedBy_toStringInt : DelimitedBy (fun c => c = ',') toStringInt := by
  refine .of_notMem toStringInt_injective fun n c hc hstop => ?_
  have hdigits : ',' ∉ appendUint n.natAbs :=
    fun h => absurd (isDigit_of_mem_appendUint h) (by decide)
  rw [hstop] at hc
  unfold toStringInt at hc
  split_ifs at hc with hneg
  · rcases List.mem_cons.mp hc with hminus | hmem
    · exact absurd hminus (by decide)
    · exact hdigits hmem
  · exact hdigits hc

theorem selfDelimiting_boolText : SelfDelimiting boolText :=
  .of_prefixFree (by decide)

theorem selfDelimiting_entryText : SelfDelimiting entryText := by
  have hcode := ((selfDelimiting_jsonEscape.pair (delimitedBy_toStringInt.close rfl)
    (kRssiHead.drop 1)).pair selfDelimiting_boolText (kSecureHead.drop 1)).enclose kSsidHead ['}']
  intro m n rest rest' heq
  obtain ⟨hfields, hrest⟩ := hcode ((m.ssid, m.rssi), m.secured) ((n.ssid, n.rssi), n.secured)
    rest rest' (by simpa [entryText, kRssiHead, kSecureHead] using heq)
  cases m
  cases n
  simp only [Prod.mk.injEq] at hfields
  obtain ⟨⟨rfl, rfl⟩, rfl⟩ := hfields
  exact ⟨rfl, hrest⟩

theorem scanBody_injective : Function.Injective fun p : Bool × List WifiScanEntry =>
    scanBody p.1 p.2 := by
  have hitems := (selfDelimiting_entryText.delimitedBy fun c => c = ',' ∨ c = ']').separated
    (by decide) fun n => ⟨'{', _, rfl, by decide⟩
  have hcode := (selfDelimiting_boolText.pair hitems kScanHead).enclose kReadyHead ['}']
  intro p q heq
  exact hcode.injective (by simpa [scanBody, joinComma] using heq)

/-! ### JSON -/

theorem hexValue_digits : ∀ n < 32, hexValue (Nat.digitChar (n / 16)) = some (n / 16) ∧
    hexValue (Nat.digitChar (n % 16)) = some (n % 16) ∧
      utf8 (Char.ofNat n) = [Char.ofNat n] := by
  decide

theorem bodyText_jsonEscape (s : List UInt8) :
    BodyText true (s.map charOfByte) (jsonEscape s) := by
  induction s with
  | nil => exact .nil
  | cons c s ih =>
      rw [List.map_cons, jsonEscape, List.flatMap_cons, jsonEscapeByte]
      split_ifs with hquote hslash hnewline hreturn htab hcontrol
      · rw [hquote]
        exact .short (by decide) ih
      · rw [hslash]
        exact .short (by decide) ih
      · rw [hnewline]
        exact .short (by decide) ih
      · rw [hreturn]
        exact .short (by decide) ih
      · rw [htab]
        exact .short (by decide) ih
      · have hlt : c.toNat < 32 := UInt8.lt_iff_toNat_lt.mp hcontrol
        obtain ⟨hhigh, hlow, hutf⟩ := hexValue_digits c.toNat hlt
        have hunit := CodeUnit.digits (a := '0') (b := '0') (i := 0) (j := 0) rfl rfl hhigh hlow
        have hvalue : ((0 * 16 + 0) * 16 + c.toNat / 16) * 16 + c.toNat % 16 = c.toNat := by
          omega
        rw [hvalue] at hunit
        have hcode := BodyText.code rfl hunit (.inl (by omega)) ih
        rwa [hutf] at hcode
      · have hge : 0x20 ≤ (charOfByte c).toNat := by
          rw [toNat_charOfByte]
          exact Nat.not_lt.mp fun h => hcontrol (UInt8.lt_iff_toNat_lt.mpr h)
        exact .raw hge (fun heq => hquote (charOfByte_injective heq))
          (fun heq => hslash (charOfByte_injective heq)) ih

theorem text_toStringInt (n : ℤ) : Text .value (toStringInt n) := by
  unfold toStringInt
  split_ifs with hneg
  · have hdigits : Digits (appendUint n.natAbs) :=
      ⟨Nat.toDigits_ne_nil, fun c hc => of_decide_eq_true (isDigit_of_mem_appendUint hc)⟩
    have hhead := head?_appendUint (n := n.natAbs) (by omega)
    have hnumber := @NumberText.mk true _ [] [] [] 0 hdigits (.inl hhead) .none .none
    exact .number (by simpa using hnumber)
  · exact text_appendUint n.natAbs

theorem text_boolText (b : Bool) : Text .value (boolText b) := by
  cases b
  · exact .false
  · exact .true

theorem text_entryText (n : WifiScanEntry) : Text .value (entryText n) := by
  have hsecure := Text.member white_nil
    (stringText_raw true ['s', 'e', 'c', 'u', 'r', 'e'] (by decide)) white_nil white_nil
    (text_boolText n.secured) white_nil
  have hrssi := Text.members white_nil (stringText_raw true ['r', 's', 's', 'i'] (by decide))
    white_nil white_nil (text_toStringInt n.rssi) white_nil hsecure
  have hssid := Text.members white_nil (stringText_raw true ['s', 's', 'i', 'd'] (by decide))
    white_nil white_nil (.string ⟨_, bodyText_jsonEscape n.ssid, rfl⟩) white_nil hrssi
  simpa [entryText, kSsidHead, kRssiHead, kSecureHead] using Text.object hssid

theorem text_scanBody (ready : Bool) (nets : List WifiScanEntry) :
    Text .value (scanBody ready nets) := by
  have harray : Text .value ('[' :: joinComma (nets.map entryText) ++ [']']) :=
    text_array fun n _ => text_entryText n
  have hscan := Text.member white_nil
    (stringText_raw true ['s', 'c', 'a', 'n'] (by decide)) white_nil white_nil harray white_nil
  have hready := Text.members white_nil
    (stringText_raw true ['r', 'e', 'a', 'd', 'y'] (by decide)) white_nil white_nil
    (text_boolText ready) white_nil hscan
  simpa [scanBody, kReadyHead, kScanHead] using Text.object hready

/-- The answer is a JSON text, which tells the whole list and whether a scan is ready. -/
theorem scanBody_json_injective :
    (Function.Injective fun p : Bool × List WifiScanEntry => scanBody p.1 p.2) ∧
      ∀ ready nets, Text .value (scanBody ready nets) :=
  ⟨scanBody_injective, text_scanBody⟩

/-! ### The background scan -/

/-- Where the task of the event loop stands in `OnScanDone`. -/
inductive EventTask
  | idle
  | storeCache (records : List ApRecord)
  | setReady
  deriving DecidableEq, Repr

structure ScanState where
  scanCache : List WifiScanEntry
  scanInFlight : Bool
  scanReady : Bool
  eventTask : EventTask
  /-- The copy which `HandleScan` took of the cache. -/
  copy : Option (List WifiScanEntry)
  deriving DecidableEq, Repr

inductive ScanMove
  /-- `TriggerScanLocked`, with what `esp_wifi_scan_start` gives. -/
  | triggerScan (rc : Ota.EspErr)
  /-- The driver raises `WIFI_EVENT_SCAN_DONE` with the records it holds. -/
  | scanDone (records : List ApRecord)
  | eventTask
  | getCachedScan
  | sendAnswer
  deriving DecidableEq, Repr

inductive ScanEvent
  | stored (records : List ApRecord)
  | copied
  | answered (body : List Char)
  deriving DecidableEq, Repr

namespace ScanState

def boot : ScanState where
  scanCache := []
  scanInFlight := false
  scanReady := false
  eventTask := .idle
  copy := none

def step (std : StdSort) (s : ScanState) : ScanMove → ScanState × List ScanEvent
  | .triggerScan rc =>
    if s.scanInFlight then (s, []) else ({ s with scanInFlight := rc == Ota.espOk }, [])
  | .scanDone records =>
    match s.eventTask with
    | .idle =>
      if s.scanInFlight then
        ({ s with scanInFlight := false, eventTask := .storeCache records }, [])
      else (s, [])
    | _ => (s, [])
  | .eventTask =>
    match s.eventTask with
    | .idle => (s, [])
    | .storeCache records =>
      ({ s with scanCache := networks std records, eventTask := .setReady }, [.stored records])
    | .setReady => ({ s with scanReady := true, eventTask := .idle }, [])
  | .getCachedScan => ({ s with copy := some s.scanCache }, [.copied])
  | .sendAnswer =>
    match s.copy with
    | none => (s, [])
    | some nets => ({ s with copy := none }, [.answered (scanBody s.scanReady nets)])

/-- The records of the scan which was stored last. -/
def lastScan (log : List ScanEvent) : Option (List ApRecord) :=
  log.foldl
    (fun last e =>
      match e with
      | .stored records => some records
      | _ => last) none

/-- What the cache holds after the scans. -/
def cacheOf (std : StdSort) : Option (List ApRecord) → List WifiScanEntry
  | none => []
  | some records => networks std records

@[simp]
theorem lastScan_append_stored (log : List ScanEvent) (records : List ApRecord) :
    lastScan (log ++ [.stored records]) = some records := by
  simp [lastScan]

@[simp]
theorem lastScan_append_copied (log : List ScanEvent) :
    lastScan (log ++ [.copied]) = lastScan log := by
  simp [lastScan]

@[simp]
theorem lastScan_append_answered (log : List ScanEvent) (body : List Char) :
    lastScan (log ++ [.answered body]) = lastScan log := by
  simp [lastScan]

/-- The list is what the cache held when it was copied last. -/
def CopiedIn (std : StdSort) (log : List ScanEvent) (nets : List WifiScanEntry) : Prop :=
  ∃ before after, log = before ++ .copied :: after ∧ .copied ∉ after ∧
    nets = cacheOf std (lastScan before)

/-- An answer tells what was copied; a scan was stored before it says that one is ready. -/
def Faithful (std : StdSort) (past : List ScanEvent) (e : ScanEvent) : Prop :=
  ∀ body, e = .answered body → ∃ ready nets, body = scanBody ready nets ∧
    CopiedIn std past nets ∧ (ready = true → lastScan past ≠ none)

structure Told (std : StdSort) (s : ScanState) (log : List ScanEvent) : Prop where
  cache : s.scanCache = cacheOf std (lastScan log)
  ready : s.scanReady = true → lastScan log ≠ none
  storing : s.eventTask = .setReady → lastScan log ≠ none
  copy : ∀ nets, s.copy = some nets → CopiedIn std log nets
  faithful : Throughout (Faithful std) log

variable {std : StdSort} {s : ScanState} {log : List ScanEvent}

theorem CopiedIn.append {nets : List WifiScanEntry} (h : CopiedIn std log nets) {e : ScanEvent}
    (he : e ≠ .copied) : CopiedIn std (log ++ [e]) nets := by
  obtain ⟨before, after, rfl, hlast, hnets⟩ := h
  refine ⟨before, after ++ [e], by simp, ?_, hnets⟩
  rw [List.mem_append, List.mem_singleton]
  rintro (hmem | rfl)
  · exact hlast hmem
  · exact he rfl

theorem told_boot : Told std boot [] where
  cache := rfl
  ready := fun h => absurd h Bool.false_ne_true
  storing := fun h => absurd h EventTask.noConfusion
  copy := fun _ h => absurd h.symm (Option.some_ne_none _)
  faithful := throughout_nil

/-- What a move can do. -/
inductive Outcome (std : StdSort) (s : ScanState) : ScanState × List ScanEvent → Prop
  | quiet {s' : ScanState} (hcache : s'.scanCache = s.scanCache)
      (hready : s'.scanReady = s.scanReady)
      (htask : s'.eventTask = .setReady → s.eventTask = .setReady) (hcopy : s'.copy = s.copy) :
      Outcome std s (s', [])
  | stored (records : List ApRecord) :
      Outcome std s
        ({ s with scanCache := networks std records, eventTask := .setReady }, [.stored records])
  | ready (htask : s.eventTask = .setReady) :
      Outcome std s ({ s with scanReady := true, eventTask := .idle }, [])
  | copied : Outcome std s ({ s with copy := some s.scanCache }, [.copied])
  | answered {nets : List WifiScanEntry} (hcopy : s.copy = some nets) :
      Outcome std s ({ s with copy := none }, [.answered (scanBody s.scanReady nets)])

theorem outcome_self : Outcome std s (s, []) :=
  .quiet rfl rfl id rfl

theorem step_outcome (std : StdSort) (s : ScanState) (m : ScanMove) :
    Outcome std s (s.step std m) := by
  cases m with
  | triggerScan rc =>
      dsimp only [step]
      split
      · exact outcome_self
      · exact .quiet rfl rfl id rfl
  | scanDone records =>
      dsimp only [step]
      split
      · split
        · exact .quiet rfl rfl (fun h => absurd h EventTask.noConfusion) rfl
        · exact outcome_self
      · exact outcome_self
  | eventTask =>
      dsimp only [step]
      split
      · exact outcome_self
      · exact .stored _
      · next htask => exact .ready htask
  | getCachedScan => exact .copied
  | sendAnswer =>
      dsimp only [step]
      split
      · exact outcome_self
      · next nets hcopy => exact .answered hcopy

theorem faithful_of_ne {e : ScanEvent} (he : ∀ body, e ≠ .answered body) : Faithful std log e :=
  fun body heq => absurd heq (he body)

theorem Told.step (h : Told std s log) (m : ScanMove) :
    Told std (s.step std m).1 (log ++ (s.step std m).2) := by
  have houtcome := step_outcome std s m
  generalize s.step std m = result at houtcome ⊢
  cases houtcome with
  | quiet hcache hready htask hcopy =>
      rw [List.append_nil]
      exact ⟨hcache.trans h.cache, fun hr => h.ready (hready ▸ hr), fun ht => h.storing (htask ht),
        fun nets hn => h.copy nets (hcopy ▸ hn), h.faithful⟩
  | stored records =>
      refine ⟨?_, ?_, ?_, fun nets hn => (h.copy nets hn).append ScanEvent.noConfusion,
        throughout_append_singleton.mpr ⟨h.faithful, faithful_of_ne fun _ => ScanEvent.noConfusion⟩⟩
      · simp [cacheOf]
      · simp
      · simp
  | ready htask =>
      rw [List.append_nil]
      exact ⟨h.cache, fun _ => h.storing htask, fun ht => absurd ht EventTask.noConfusion, h.copy,
        h.faithful⟩
  | copied =>
      refine ⟨by simpa using h.cache, by simpa using h.ready, by simpa using h.storing, ?_,
        throughout_append_singleton.mpr ⟨h.faithful, faithful_of_ne fun _ => ScanEvent.noConfusion⟩⟩
      intro nets hn
      exact ⟨log, [], rfl, List.not_mem_nil, (Option.some.inj hn).symm.trans h.cache⟩
  | answered hcopy =>
      refine ⟨by simpa using h.cache, by simpa using h.ready, by simpa using h.storing,
        fun _ hn => absurd hn.symm (Option.some_ne_none _),
        throughout_append_singleton.mpr ⟨h.faithful, ?_⟩⟩
      intro body heq
      exact ⟨_, _, (ScanEvent.answered.inj heq).symm, h.copy _ hcopy, h.ready⟩

theorem told_of_run (std : StdSort) (moves : List ScanMove) :
    Told std (reached (step std) boot moves) (emitted (step std) boot moves) := by
  have h : Told std (reached (step std) boot moves) ([] ++ emitted (step std) boot moves) :=
    emitted_invariant (fun _ _ m h => h.step m) told_boot moves
  rwa [List.nil_append] at h

/-- Every answer lists the networks of the scan which was stored last before the cache was copied
for it, each once and the strongest first, and no network before the first scan. -/
theorem answers_of_run (std : StdSort) (moves : List ScanMove) (past : List ScanEvent)
    (body : List Char) (later : List ScanEvent) :
    emitted (step std) boot moves = past ++ .answered body :: later →
      ∃ before after ready nets, past = before ++ .copied :: after ∧ .copied ∉ after ∧
        body = scanBody ready nets ∧ (ready = true → lastScan past ≠ none) ∧
          (lastScan before = none → nets = []) ∧
            ∀ records, lastScan before = some records → Lists records nets := by
  intro hsplit
  obtain ⟨ready, nets, hbody, ⟨before, after, hpast, hlast, rfl⟩, hready⟩ :=
    (told_of_run std moves).faithful past _ later hsplit body rfl
  refine ⟨before, after, ready, _, hpast, hlast, hbody, hready, ?_, ?_⟩
  · intro hnone
    rw [hnone]
    rfl
  · intro records hsome
    rw [hsome]
    exact lists_networks std records

def demoSort : StdSort where
  sort out := out.mergeSort fun a b => decide (b.rssi ≤ a.rssi)
  perm out := List.mergeSort_perm out _
  sorted out := by
    have hsorted : (out.mergeSort fun a b => decide (b.rssi ≤ a.rssi)).Pairwise
        fun a b => decide (b.rssi ≤ a.rssi) = true := by
      refine List.pairwise_mergeSort (fun a b c hab hbc => ?_) (fun a b => ?_) out
      · simp only [decide_eq_true_eq] at *
        omega
      · simpa using Int.le_total b.rssi a.rssi
    exact hsorted.imp fun h => of_decide_eq_true h

/-- Two records of one network. -/
def demoRecords : List ApRecord :=
  [⟨[0x61, 0x62, 0], -70, 3⟩, ⟨[0x61, 0x62, 0], -40, 3⟩]

theorem answers_of_run_twoRecords :
    ∃ before after ready nets,
      [ScanEvent.stored demoRecords, .copied] = before ++ .copied :: after ∧ .copied ∉ after ∧
        scanBody true (networks demoSort demoRecords) = scanBody ready nets ∧
          (ready = true → lastScan [.stored demoRecords, .copied] ≠ none) ∧
            (lastScan before = none → nets = []) ∧
              ∀ records, lastScan before = some records → Lists records nets :=
  answers_of_run demoSort
    [.triggerScan Ota.espOk, .scanDone demoRecords, .eventTask, .eventTask, .getCachedScan,
      .sendAnswer]
    [.stored demoRecords, .copied] _ [] rfl

end ScanState

end Wifi

end BtClock
