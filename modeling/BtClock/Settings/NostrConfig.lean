import BtClock.Settings.Schema

/-!
# The relay list

The lists of relays and of public keys are stored as comma-separated strings.  The list of
relays has a legacy slot of one relay, which is read when the list is empty.
-/

namespace BtClock

namespace Settings

def kMaxNostrRelays : ℕ := 4

def kMaxZapPubkeys : ℕ := 8

def kNostrRelay : String := "nostrRelay"

def kNostrRelays : String := "nostrRelays"

def kDefaultRelay : String := "wss://relay.primal.net"

theorem findField_nostrRelay :
    findField kNostrRelay =
      some { key := kNostrRelay, kind := .string, bootOnly := true,
             defaultStr := kDefaultRelay } :=
  rfl

theorem defaultStringFor_nostrRelays : defaultStringFor kNostrRelays = "" :=
  rfl

/-- The pieces between the commas which are not empty. -/
def splitCsv (s : String) : List String :=
  ((s.toList.splitOn ',').filter fun item => !item.isEmpty).map String.ofList

/-- A list with one more item, a comma in front unless it is the first. -/
def appendCsv (joined s : String) : String :=
  if joined = "" then s else joined ++ "," ++ s

@[simp]
theorem splitCsv_empty : splitCsv "" = [] := by
  decide

theorem splitCsv_append_comma (s t : String) :
    splitCsv (s ++ "," ++ t) = splitCsv s ++ splitCsv t := by
  have hlist : (s ++ "," ++ t).toList = s.toList ++ ',' :: t.toList := by simp
  simp only [splitCsv, hlist, List.splitOn_append_cons_self, List.filter_append,
    List.map_append]

theorem splitCsv_appendCsv (joined s : String) :
    splitCsv (appendCsv joined s) = splitCsv joined ++ splitCsv s := by
  by_cases h : joined = ""
  · simp [appendCsv, h]
  · simp [appendCsv, h, splitCsv_append_comma]

/-- The legacy slot folds the empty string to the default relay. -/
theorem readString_nostrRelay (prefs : Prefs) :
    readString prefs kNostrRelay =
      if prefs.getString kNostrRelay kDefaultRelay = "" then kDefaultRelay
      else prefs.getString kNostrRelay kDefaultRelay := by
  have hdefault : defaultStringFor kNostrRelay = kDefaultRelay := rfl
  have hne : kDefaultRelay ≠ "" := by decide
  simp [readString, hdefault, hne]

theorem readString_nostrRelays (prefs : Prefs) :
    readString prefs kNostrRelays = prefs.getString kNostrRelays "" := by
  simp [readString, defaultStringFor_nostrRelays]

/-- The list of relays, the legacy slot when it is empty. -/
def relayCsv (prefs : Prefs) : String :=
  let csv := readString prefs kNostrRelays
  if csv = "" then readString prefs kNostrRelay else csv

/-- The relays which the boot path connects to; the legacy slot is one relay. -/
def readRelayUrls (prefs : Prefs) : List String :=
  let csv := readString prefs kNostrRelays
  let legacy := readString prefs kNostrRelay
  let out := if csv ≠ "" then splitCsv csv else if legacy ≠ "" then [legacy] else []
  out.take kMaxNostrRelays

theorem relayCsv_congr {prefs prefs' : Prefs}
    (hlist : readString prefs kNostrRelays = readString prefs' kNostrRelays)
    (hlegacy : readString prefs kNostrRelay = readString prefs' kNostrRelay) :
    relayCsv prefs = relayCsv prefs' := by
  simp only [relayCsv, hlist, hlegacy]

end Settings

end BtClock
