import BtClock.Data.Json
import BtClock.Nostr.SubscriptionManager
import BtClock.Ota.PushOutcome

/-!
# Automatic update of the firmware

`RunAutoUpdate` looks up the image and its checksum in the description of the release, downloads
the image into the next partition and hashes what the flash holds before the download is finished,
which makes the partition the one to boot.
-/

namespace BtClock

namespace Ota

open Reading Nostr

abbrev espErrHttpsOtaInProgress : EspErr := 0x9001

/-! ### What is fetched -/

/-- What a GET meets: whether there is a client, the code of `esp_http_client_perform`, the status
and the data events. -/
structure HttpAnswer where
  client : Bool := true
  err : EspErr := espOk
  status : ℤ := 200
  data : List (List Char) := []
  deriving DecidableEq, Repr

def kReleaseJsonCap : ℕ := 32 * 1024

def kChecksumCap : ℕ := 1024

structure FetchCtx where
  body : List Char := []
  truncated : Bool := false
  deriving DecidableEq, Repr

/-- The first piece which goes past the cap ends the body. -/
def fetchEventHandler (cap : ℕ) (ctx : FetchCtx) (data : List Char) : FetchCtx :=
  if ctx.truncated then ctx
  else if ctx.body.length + data.length > cap then { ctx with truncated := true }
  else { ctx with body := ctx.body ++ data }

def httpGetString (url : String) (cap : ℕ) (answer : HttpAnswer) : Except EspErr (List Char) :=
  if url = "" then .error espErrInvalidArg
  else if answer.client = false then .error espFail
  else
    let ctx := answer.data.foldl (fetchEventHandler cap) {}
    if answer.err ≠ espOk then .error answer.err
    else if answer.status < 200 ∨ 300 ≤ answer.status then .error espFail
    else if ctx.truncated then .error espFail
    else .ok ctx.body

instance (c : Char) : Decidable (IsHexDigit c) :=
  inferInstanceAs (Decidable ('0' ≤ c ∧ c ≤ '9' ∨ 'a' ≤ c ∧ c ≤ 'f'))

/-- The loop of `ExtractSha256Hex`, with the digits so far. -/
def sha256HexLoop : List Char → List Char → List Char
  | hex, [] => hex
  | hex, c :: raw =>
      if hex.length = 64 then hex
      else if IsHexDigit (lowerHexDigit c) then sha256HexLoop (hex ++ [lowerHexDigit c]) raw
      else if hex ≠ [] then hex
      else sha256HexLoop hex raw

def extractSha256Hex (raw : List Char) : Option (List Char) :=
  let hex := sha256HexLoop [] raw
  if hex.length = 64 then some hex else none

structure ReleaseInfo where
  fileUrl : String := ""
  checksumUrl : String := ""
  deriving DecidableEq, Repr

/-- `cJSON_GetObjectItem`: the first member whose name has those letters in any case. -/
def getObjectItemAnyCase (json : Json) (key : String) : Option Json :=
  match json with
  | .object members =>
      let letters (name : String) := name.toList.map toLowerAscii
      (members.find? fun m => letters m.1 == letters key).map Prod.snd
  | _ => none

/-- The name and the address of an asset. -/
def assetOf (asset : Json) : Option (String × String) :=
  match getObjectItemAnyCase asset "name",
    getObjectItemAnyCase asset "browser_download_url" with
  | some (.string name), some (.string url) => some (name, url)
  | _, _ => none

def addAsset (firmwareAsset : String) (info : ReleaseInfo) (asset : String × String) :
    ReleaseInfo :=
  if asset.1 = firmwareAsset then { info with fileUrl := asset.2 }
  else if asset.1 = firmwareAsset ++ ".sha256" then { info with checksumUrl := asset.2 }
  else info

/-- The loop over the assets, which ends when both addresses are known. -/
def assetsLoop (firmwareAsset : String) : ReleaseInfo → List Json → ReleaseInfo
  | info, [] => info
  | info, asset :: rest =>
      match assetOf asset with
      | none => assetsLoop firmwareAsset info rest
      | some named =>
          let info := addAsset firmwareAsset info named
          if info.fileUrl ≠ "" ∧ info.checksumUrl ≠ "" then info
          else assetsLoop firmwareAsset info rest

def parseReleaseJson (parse : List Char → Option Json) (json : List Char) (firmwareAsset : String) :
    ReleaseInfo :=
  match (parse json).bind fun root => getObjectItemAnyCase root "assets" with
  | some (.array assets) => assetsLoop firmwareAsset {} assets
  | _ => {}

/-! ### The update -/

/-- The platform: `esp_https_ota`, and what the flash holds. -/
structure HttpsOta (φ : Type*) where
  boot : φ → Partition
  contents : φ → Partition → List UInt8
  nextUpdatePartition : φ → Option Partition
  otaBegin : String → φ → EspErr × φ
  imageSize : φ → ℤ
  perform : φ → EspErr × φ
  isCompleteDataReceived : φ → Bool
  imageLenRead : φ → ℤ
  abort : φ → φ
  finish : φ → EspErr × φ
  partitionRead : Partition → ℕ → ℕ → φ → Option (List UInt8)

structure AutoUpdate (φ : Type*) extends OtaManager φ where
  emitted : List OtaProgress := []
  prog : OtaProgress := ⟨0, 0, .starting⟩

/-- What `RunAutoUpdate` reads and meets: the address of the release when the task runs, the name
of the image, the answers to the two GETs, the parser and the allocations. -/
structure AutoEnv where
  releaseUrl : String
  firmwareAsset : String
  release : String → HttpAnswer
  checksum : String → HttpAnswer
  parse : List Char → Option Json
  heap : Heap

/-- Where `RunAutoUpdate` is left. -/
inductive AutoEnd
  /-- Before anything was shown. -/
  | quiet
  | failed
  /-- At `esp_restart`. -/
  | rebooting
  /-- Still downloading. -/
  | performing
  deriving DecidableEq, Repr

namespace AutoUpdate

variable {φ : Type*}

/-- The values which stay in `prog`. -/
def emit (s : AutoUpdate φ) (prog : OtaProgress) : AutoUpdate φ :=
  { s with emitted := s.emitted ++ [prog], prog := prog }

def release (s : AutoUpdate φ) : AutoUpdate φ :=
  { s with isUpdating := false }

def fail (s : AutoUpdate φ) : AutoEnd × AutoUpdate φ :=
  (.failed, (s.emit { s.prog with phase := .failed }).release)

end AutoUpdate

variable {φ : Type*} (api : HttpsOta φ)

/-- The loop of `HashOtaPartition`. -/
def hashLoop (part : Partition) (imageBytes : ℕ) (flash : φ) (offset : ℕ) (md : Sha256Ctx) :
    Option Sha256Ctx :=
  if offset < imageBytes then
    let want := min kChunk (imageBytes - offset)
    match api.partitionRead part offset want flash with
    | none => none
    | some bytes => hashLoop part imageBytes flash (offset + want) (sha256Update md bytes)
  else some md
termination_by imageBytes - offset
decreasing_by
  have hchunk : 0 < kChunk := by decide
  omega

def hashOtaPartition (heap : Heap) (part : Partition) (imageBytes : ℕ) (flash : φ) :
    Option (List Char) :=
  if !heap.md || !heap.buf then none
  else
    (hashLoop api part imageBytes flash 0 sha256Init).map fun md =>
      (hexLowercase (sha256Final md)).toList

/-- At most so many calls of `esp_https_ota_perform`; none when it is still in progress. -/
def performLoop : ℕ → ℕ → AutoUpdate φ → Option EspErr × AutoUpdate φ
  | 0, _, s => (none, s)
  | turns + 1, nextProgress, s =>
      match api.perform s.flash with
      | (rc, flash) =>
          let s := { s with flash := flash }
          if rc = espErrHttpsOtaInProgress then
            let read := api.imageLenRead flash
            if 0 < read ∧ nextProgress ≤ read.toNat then
              performLoop turns (read.toNat + kProgressStepBytes)
                (s.emit { s.prog with written := read.toNat, phase := .writing })
            else performLoop turns nextProgress s
          else (some rc, s)

/-- `RunAutoUpdate` behind the download. -/
def verifyUpdate (env : AutoEnv) (expectedHex : List Char) (s : AutoUpdate φ) :
    AutoEnd × AutoUpdate φ :=
  let flash := s.flash
  let imageLen := api.imageLenRead flash
  let s := s.emit { s.prog with written := imageLen.toNat, phase := .verifying }
  let actualHex := (api.nextUpdatePartition flash).bind fun target =>
    if 0 < imageLen then hashOtaPartition api env.heap target imageLen.toNat flash else none
  if actualHex ≠ some expectedHex then { s with flash := api.abort flash }.fail
  else
    let finished := api.finish flash
    let s := { s with flash := finished.2 }
    if finished.1 ≠ espOk then s.fail
    else (.rebooting, s.emit { s.prog with phase := .rebooting })

/-- `RunAutoUpdate` behind `esp_https_ota_perform`, whose code is `rc` when it has ended. -/
def performed (env : AutoEnv) (expectedHex : List Char) (rc : Option EspErr) (s : AutoUpdate φ) :
    AutoEnd × AutoUpdate φ :=
  match rc with
  | none => (.performing, s)
  | some rc =>
      if rc ≠ espOk then { s with flash := api.abort s.flash }.fail
      else if api.isCompleteDataReceived s.flash = false then
        { s with flash := api.abort s.flash }.fail
      else verifyUpdate api env expectedHex s

/-- `RunAutoUpdate` with the addresses and the checksum, up to `turns` turns of the download. -/
def download (env : AutoEnv) (turns : ℕ) (fileUrl : String) (expectedHex : List Char)
    (s : AutoUpdate φ) : AutoEnd × AutoUpdate φ :=
  let begun := api.otaBegin fileUrl s.flash
  let s := { s.emit ⟨0, 0, .starting⟩ with flash := begun.2 }
  if begun.1 ≠ espOk then s.fail
  else
    let total := (api.imageSize begun.2).toNat
    let loop := performLoop api turns kProgressStepBytes
      (s.emit { s.prog with total := total, phase := .writing })
    performed api env expectedHex loop.1 loop.2

/-- The address of the image and the digest it shall have. -/
def resolveUpdate (env : AutoEnv) : Option (String × List Char) :=
  if env.releaseUrl = "" then none
  else
    match httpGetString env.releaseUrl kReleaseJsonCap (env.release env.releaseUrl) with
    | .error _ => none
    | .ok releaseBody =>
        let info := parseReleaseJson env.parse releaseBody env.firmwareAsset
        if info.fileUrl = "" ∨ info.checksumUrl = "" then none
        else
          match httpGetString info.checksumUrl kChecksumCap (env.checksum info.checksumUrl) with
          | .error _ => none
          | .ok shaBody => (extractSha256Hex shaBody).map fun hex => (info.fileUrl, hex)

/-- The flag was taken by `TriggerAutoUpdate`, and the guard gives it back on every return. -/
def runAutoUpdate (env : AutoEnv) (turns : ℕ) (m : OtaManager φ) : AutoEnd × AutoUpdate φ :=
  let s : AutoUpdate φ := { m with }
  match resolveUpdate env with
  | none => (.quiet, s.release)
  | some (fileUrl, expectedHex) => download api env turns fileUrl expectedHex s

/-! ### What the answers say -/

/-- The first digits of a text, of which there are at least 64, in lower case. -/
def FirstDigits (raw hex : List Char) : Prop :=
  ∃ pre digits post, raw = pre ++ (digits ++ post) ∧ (∀ c ∈ pre, ¬ IsHexDigit (lowerHexDigit c)) ∧
    digits.length = 64 ∧ (∀ c ∈ digits, IsHexDigit (lowerHexDigit c)) ∧
      digits.map lowerHexDigit = hex

theorem sha256HexLoop_digits {hex digits : List Char} (post : List Char)
    (hdigits : ∀ c ∈ digits, IsHexDigit (lowerHexDigit c))
    (hlength : hex.length + digits.length = 64) :
    sha256HexLoop hex (digits ++ post) = hex ++ digits.map lowerHexDigit := by
  induction digits generalizing hex with
  | nil =>
      cases post with
      | nil => simp [sha256HexLoop]
      | cons c post =>
          have hfull : hex.length = 64 := hlength
          rw [List.nil_append, sha256HexLoop, if_pos hfull, List.map_nil, List.append_nil]
  | cons d digits ih =>
      rw [List.length_cons] at hlength
      rw [List.cons_append, sha256HexLoop, if_neg (by omega),
        if_pos (hdigits d List.mem_cons_self),
        ih (fun c hc => hdigits c (List.mem_cons_of_mem d hc)) (by simp; omega)]
      simp

/-- What the loop finds behind digits it has. -/
theorem digits_of_sha256HexLoop {hex raw : List Char} (hne : hex ≠ []) (hle : hex.length ≤ 64)
    (h : (sha256HexLoop hex raw).length = 64) :
    ∃ digits post, raw = digits ++ post ∧ hex.length + digits.length = 64 ∧
      ∀ c ∈ digits, IsHexDigit (lowerHexDigit c) := by
  induction raw generalizing hex with
  | nil =>
      rw [sha256HexLoop] at h
      exact ⟨[], [], rfl, h, by simp⟩
  | cons c raw ih =>
      by_cases hfull : hex.length = 64
      · exact ⟨[], c :: raw, rfl, hfull, by simp⟩
      · rw [sha256HexLoop, if_neg hfull] at h
        by_cases hdigit : IsHexDigit (lowerHexDigit c)
        · rw [if_pos hdigit] at h
          obtain ⟨digits, post, rfl, hlength, hdigits⟩ := ih (by simp) (by simp; omega) h
          refine ⟨c :: digits, post, rfl, ?_, List.forall_mem_cons.mpr ⟨hdigit, hdigits⟩⟩
          rw [List.length_append, List.length_singleton] at hlength
          rw [List.length_cons]
          omega
        · rw [if_neg hdigit, if_pos hne] at h
          exact absurd h hfull

theorem firstDigits_iff_sha256HexLoop (raw hex : List Char) :
    FirstDigits raw hex ↔ (sha256HexLoop [] raw).length = 64 ∧ sha256HexLoop [] raw = hex := by
  refine Iff.symm ?_
  induction raw with
  | nil =>
      constructor
      · rintro ⟨h, -⟩
        simp [sha256HexLoop] at h
      · rintro ⟨pre, digits, post, hraw, -, hlength, -, -⟩
        simp_all
  | cons c raw ih =>
      by_cases hdigit : IsHexDigit (lowerHexDigit c)
      · have hstep : sha256HexLoop [] (c :: raw) = sha256HexLoop [lowerHexDigit c] raw := by
          rw [sha256HexLoop, if_neg (by simp), if_pos hdigit, List.nil_append]
        rw [hstep]
        constructor
        · rintro ⟨hlength, rfl⟩
          obtain ⟨digits, post, rfl, hlen, hdigits⟩ :=
            digits_of_sha256HexLoop (List.cons_ne_nil _ _) (by simp) hlength
          refine ⟨[], c :: digits, post, rfl, by simp, ?_,
            List.forall_mem_cons.mpr ⟨hdigit, hdigits⟩, ?_⟩
          · rw [List.length_singleton] at hlen
            rw [List.length_cons]
            omega
          · rw [sha256HexLoop_digits post hdigits hlen]
            rfl
        · rintro ⟨pre, digits, post, hraw, hpre, hlength, hdigits, rfl⟩
          cases pre with
          | cons d pre =>
              obtain ⟨rfl, -⟩ := List.cons.inj hraw
              exact absurd hdigit (hpre c List.mem_cons_self)
          | nil =>
              cases digits with
              | nil => cases hlength
              | cons d digits =>
                  obtain ⟨rfl, hsame⟩ := List.cons.inj hraw
                  have hlen : [lowerHexDigit c].length + digits.length = 64 := by
                    rw [List.length_cons] at hlength
                    rw [List.length_singleton]
                    omega
                  have hrest := sha256HexLoop_digits post
                    (fun d hd => hdigits d (List.mem_cons_of_mem c hd)) hlen
                  rw [hsame, List.append_eq, hrest]
                  exact ⟨by rwa [List.length_append, List.length_map], rfl⟩
      · have hstep : sha256HexLoop [] (c :: raw) = sha256HexLoop [] raw := by
          rw [sha256HexLoop, if_neg (by simp), if_neg hdigit, if_neg (by simp)]
        rw [hstep, ih]
        constructor
        · rintro ⟨pre, digits, post, rfl, hpre, hrest⟩
          exact ⟨c :: pre, digits, post, rfl, List.forall_mem_cons.mpr ⟨hdigit, hpre⟩, hrest⟩
        · rintro ⟨pre, digits, post, hraw, hpre, hlength, hdigits, hhex⟩
          cases pre with
          | nil =>
              cases digits with
              | nil => cases hlength
              | cons d digits =>
                  obtain ⟨rfl, -⟩ := List.cons.inj hraw
                  exact absurd (hdigits c List.mem_cons_self) hdigit
          | cons d pre =>
              obtain ⟨rfl, rfl⟩ := List.cons.inj hraw
              exact ⟨pre, digits, post, rfl, fun e he => hpre e (List.mem_cons_of_mem c he),
                hlength, hdigits, hhex⟩

theorem extractSha256Hex_eq_some_iff (raw hex : List Char) :
    extractSha256Hex raw = some hex ↔ FirstDigits raw hex := by
  rw [firstDigits_iff_sha256HexLoop, extractSha256Hex]
  split
  · rename_i hlength
    simp [hlength]
  · rename_i hlength
    simp [hlength]

/-- The release has an asset of that name at that address. -/
def Listed (parse : List Char → Option Json) (json : List Char) (name url : String) : Prop :=
  ∃ root assets asset, parse json = some root ∧
    getObjectItemAnyCase root "assets" = some (.array assets) ∧ asset ∈ assets ∧
      assetOf asset = some (name, url)

theorem addAsset_cases (firmwareAsset : String) (info : ReleaseInfo) (asset : String × String) :
    ((addAsset firmwareAsset info asset).fileUrl = info.fileUrl ∨
        asset = (firmwareAsset, (addAsset firmwareAsset info asset).fileUrl)) ∧
      ((addAsset firmwareAsset info asset).checksumUrl = info.checksumUrl ∨
        asset = (firmwareAsset ++ ".sha256", (addAsset firmwareAsset info asset).checksumUrl)) := by
  obtain ⟨name, url⟩ := asset
  rw [addAsset]
  split
  · rename_i hname
    exact ⟨.inr (by rw [← hname]), .inl rfl⟩
  · split
    · rename_i hname
      exact ⟨.inl rfl, .inr (by rw [← hname])⟩
    · exact ⟨.inl rfl, .inl rfl⟩

/-- The addresses which the loop adds are those of assets with the names. -/
theorem mem_of_assetsLoop (firmwareAsset : String) (info : ReleaseInfo) (assets : List Json) :
    ((assetsLoop firmwareAsset info assets).fileUrl = info.fileUrl ∨ ∃ asset ∈ assets,
        assetOf asset = some (firmwareAsset, (assetsLoop firmwareAsset info assets).fileUrl)) ∧
      ((assetsLoop firmwareAsset info assets).checksumUrl = info.checksumUrl ∨
        ∃ asset ∈ assets, assetOf asset = some (firmwareAsset ++ ".sha256",
          (assetsLoop firmwareAsset info assets).checksumUrl)) := by
  induction assets generalizing info with
  | nil => exact ⟨.inl rfl, .inl rfl⟩
  | cons asset rest ih =>
      have hrest {p : Json → Prop} (h : ∃ asset ∈ rest, p asset) : ∃ a ∈ asset :: rest, p a := by
        obtain ⟨a, ha, hp⟩ := h
        exact ⟨a, List.mem_cons_of_mem asset ha, hp⟩
      rw [assetsLoop]
      cases hasset : assetOf asset with
      | none => exact ⟨(ih info).1.imp_right hrest, (ih info).2.imp_right hrest⟩
      | some named =>
          obtain ⟨hfile, hchecksum⟩ := addAsset_cases firmwareAsset info named
          have hhead {url : String} {name : String} (h : named = (name, url)) :
              ∃ a ∈ asset :: rest, assetOf a = some (name, url) :=
            ⟨asset, List.mem_cons_self, by rw [hasset, h]⟩
          dsimp only
          split
          · exact ⟨hfile.imp_right hhead, hchecksum.imp_right hhead⟩
          · obtain ⟨hfile', hchecksum'⟩ := ih (addAsset firmwareAsset info named)
            constructor
            · rcases hfile' with hsame | hmem
              · rw [hsame]
                exact hfile.imp_right hhead
              · exact .inr (hrest hmem)
            · rcases hchecksum' with hsame | hmem
              · rw [hsame]
                exact hchecksum.imp_right hhead
              · exact .inr (hrest hmem)

theorem listed_of_parseReleaseJson {parse : List Char → Option Json} {json : List Char}
    {firmwareAsset : String} {info : ReleaseInfo}
    (h : parseReleaseJson parse json firmwareAsset = info) (hfile : info.fileUrl ≠ "")
    (hchecksum : info.checksumUrl ≠ "") :
    Listed parse json firmwareAsset info.fileUrl ∧
      Listed parse json (firmwareAsset ++ ".sha256") info.checksumUrl := by
  rw [parseReleaseJson] at h
  split at h
  · rename_i assets hassets
    obtain ⟨root, hroot, hfound⟩ := Option.bind_eq_some_iff.mp hassets
    subst h
    obtain ⟨hname, hsha⟩ := mem_of_assetsLoop firmwareAsset {} assets
    obtain ⟨asset, hmem, hasset⟩ := hname.resolve_left hfile
    obtain ⟨asset', hmem', hasset'⟩ := hsha.resolve_left hchecksum
    exact ⟨⟨root, assets, asset, hroot, hfound, hmem, hasset⟩,
      ⟨root, assets, asset', hroot, hfound, hmem', hasset'⟩⟩
  · subst h
    exact absurd rfl hfile

/-! ### What the flash holds -/

/-- The functions which write leave the choice of the partition alone until the update is
finished, and what is read is what the partition holds. -/
structure HttpsOta.Lawful {φ : Type*} (api : HttpsOta φ) : Prop where
  boot_otaBegin : ∀ url f, api.boot (api.otaBegin url f).2 = api.boot f
  boot_perform : ∀ f, api.boot (api.perform f).2 = api.boot f
  boot_abort : ∀ f, api.boot (api.abort f) = api.boot f
  boot_finish : ∀ {f}, (api.finish f).1 ≠ espOk → api.boot (api.finish f).2 = api.boot f
  finish_ok : ∀ {f part}, (api.finish f).1 = espOk → api.nextUpdatePartition f = some part →
    api.boot (api.finish f).2 = part ∧ api.contents (api.finish f).2 part = api.contents f part
  partitionRead_eq : ∀ {part offset want f bytes},
    api.partitionRead part offset want f = some bytes →
      bytes = ((api.contents f part).drop offset).take want ∧ bytes.length = want

variable {φ : Type*} {api : HttpsOta φ}

/-- Every piece of the image can be read, from `offset` on. -/
def Readable (api : HttpsOta φ) (part : Partition) (imageBytes : ℕ) (flash : φ) (offset : ℕ) :
    Prop :=
  ∀ k, offset + k * kChunk < imageBytes →
    api.partitionRead part (offset + k * kChunk)
      (min kChunk (imageBytes - (offset + k * kChunk))) flash ≠ none

theorem readable_iff {part : Partition} {imageBytes : ℕ} {flash : φ} {offset : ℕ}
    (hlt : offset < imageBytes) :
    Readable api part imageBytes flash offset ↔
      api.partitionRead part offset (min kChunk (imageBytes - offset)) flash ≠ none ∧
        Readable api part imageBytes flash (offset + min kChunk (imageBytes - offset)) := by
  have hshift (k : ℕ) : offset + (k + 1) * kChunk = offset + kChunk + k * kChunk := by
    rw [Nat.succ_mul, Nat.add_assoc, Nat.add_comm kChunk]
  constructor
  · intro h
    refine ⟨by simpa using h 0 (by simpa using hlt), fun k hk => ?_⟩
    by_cases hfull : kChunk ≤ imageBytes - offset
    · rw [Nat.min_eq_left hfull] at hk ⊢
      rw [← hshift] at hk ⊢
      exact h (k + 1) hk
    · rw [Nat.min_eq_right (by omega)] at hk
      omega
  · rintro ⟨hfirst, hrest⟩ k hk
    cases k with
    | zero => simpa using hfirst
    | succ k =>
        rw [hshift] at hk ⊢
        have hfull : min kChunk (imageBytes - offset) = kChunk := Nat.min_eq_left (by omega)
        rw [hfull] at hrest
        exact hrest k hk

theorem hashLoop_eq_some_iff (hapi : api.Lawful) (part : Partition) (flash : φ)
    {imageBytes offset : ℕ} (hle : offset ≤ imageBytes) (md : Sha256Ctx) :
    hashLoop api part imageBytes flash offset
        (sha256Update sha256Init ((api.contents flash part).take offset)) = some md ↔
      Readable api part imageBytes flash offset ∧
        md = sha256Update sha256Init ((api.contents flash part).take imageBytes) := by
  induction hrest : imageBytes - offset using Nat.strong_induction_on generalizing offset with
  | h n ih =>
      rw [hashLoop]
      by_cases hlt : offset < imageBytes
      · rw [if_pos hlt, readable_iff hlt]
        dsimp only
        cases hread : api.partitionRead part offset (min kChunk (imageBytes - offset)) flash with
        | none => simp
        | some bytes =>
            obtain ⟨hbytes, -⟩ := hapi.partitionRead_eq hread
            have hstep : sha256Update (sha256Update sha256Init
                ((api.contents flash part).take offset)) bytes =
                sha256Update sha256Init ((api.contents flash part).take
                  (offset + min kChunk (imageBytes - offset))) := by
              rw [← sha256Update_append (by decide), hbytes, ← List.take_add]
            have hchunk : 0 < kChunk := by decide
            dsimp only
            rw [hstep, ih _ (by omega) (by omega) rfl]
            simp
      · have hend : offset = imageBytes := by omega
        subst hend
        rw [if_neg hlt]
        constructor
        · rintro ⟨⟩
          exact ⟨fun k hk => absurd hk (by omega), rfl⟩
        · rintro ⟨-, rfl⟩
          rfl

/-- The digest of the first bytes of the partition, in pieces of 4096. -/
theorem hashOtaPartition_eq_some_iff (hapi : api.Lawful) {heap : Heap} {part : Partition}
    {imageBytes : ℕ} {flash : φ} {hex : List Char} :
    hashOtaPartition api heap part imageBytes flash = some hex ↔
      (heap.md = true ∧ heap.buf = true) ∧ Readable api part imageBytes flash 0 ∧
        (hexLowercase (sha256 ((api.contents flash part).take imageBytes))).toList = hex := by
  have hstart : sha256Update sha256Init ((api.contents flash part).take 0) = sha256Init := rfl
  have hloop := hashLoop_eq_some_iff hapi part flash (Nat.zero_le imageBytes)
  rw [hstart] at hloop
  rw [hashOtaPartition]
  by_cases hheap : heap.md = true ∧ heap.buf = true
  · rw [if_neg (by simp [hheap]), Option.map_eq_some_iff]
    simp only [hloop, hheap, and_self, true_and]
    constructor
    · rintro ⟨md, ⟨hread, rfl⟩, hhex⟩
      exact ⟨hread, hhex⟩
    · rintro ⟨hread, hhex⟩
      exact ⟨_, ⟨hread, rfl⟩, hhex⟩
  · have hnone : (!heap.md || !heap.buf) = true := by
      rw [not_and_or] at hheap
      simpa using hheap
    rw [if_pos hnone]
    simp [hheap]

/-! ### The download -/

/-- So many calls of `esp_https_ota_perform`, of which the last one ends the download. -/
inductive Performs (api : HttpsOta φ) : ℕ → φ → φ → Prop
  | last {f f' : φ} (h : api.perform f = (espOk, f')) : Performs api 1 f f'
  | more {n : ℕ} {f f₁ f' : φ} (h : api.perform f = (espErrHttpsOtaInProgress, f₁))
      (hrest : Performs api n f₁ f') : Performs api (n + 1) f f'

theorem performLoop_ok_iff (turns nextProgress : ℕ) (s : AutoUpdate φ) (flash : φ) :
    ((performLoop api turns nextProgress s).1 = some espOk ∧
        (performLoop api turns nextProgress s).2.flash = flash) ↔
      ∃ n ≤ turns, Performs api n s.flash flash := by
  induction turns generalizing nextProgress s with
  | zero =>
      constructor
      · rintro ⟨h, -⟩
        cases h
      · rintro ⟨n, hn, hperforms⟩
        cases hperforms with
        | last h => omega
        | more h hrest => omega
  | succ turns ih =>
      rw [performLoop]
      rcases hperform : api.perform s.flash with ⟨rc, f₁⟩
      dsimp only
      by_cases hprogress : rc = espErrHttpsOtaInProgress
      · subst hprogress
        have hmore : (∃ n ≤ turns, Performs api n f₁ flash) ↔
            ∃ n ≤ turns + 1, Performs api n s.flash flash := by
          constructor
          · rintro ⟨n, hn, hrest⟩
            exact ⟨n + 1, by omega, .more hperform hrest⟩
          · rintro ⟨n, hn, hperforms⟩
            cases hperforms with
            | last h =>
                rw [hperform] at h
                cases h
            | more h hrest =>
                rw [hperform] at h
                cases h
                exact ⟨_, by omega, hrest⟩
        rw [if_pos rfl, ← hmore]
        split
        · exact ih _ _
        · exact ih _ _
      · rw [if_neg hprogress]
        constructor
        · rintro ⟨hok, rfl⟩
          cases hok
          exact ⟨1, by omega, .last hperform⟩
        · rintro ⟨n, hn, hperforms⟩
          cases hperforms with
          | last h =>
              rw [hperform] at h
              cases h
              exact ⟨rfl, rfl⟩
          | more h hrest =>
              rw [hperform] at h
              cases h
              exact absurd rfl hprogress

/-- What boots is as it was, and neither a failure nor a reboot was emitted. -/
structure Running (api : HttpsOta φ) (f : φ) (s : AutoUpdate φ) : Prop where
  boot : api.boot s.flash = api.boot f
  emitted : ∀ p ∈ s.emitted, p.phase ≠ .failed ∧ p.phase ≠ .rebooting

variable {f : φ} {s : AutoUpdate φ}

theorem Running.emit (h : Running api f s) {p : OtaProgress}
    (hp : p.phase ≠ .failed ∧ p.phase ≠ .rebooting) : Running api f (s.emit p) where
  boot := h.boot
  emitted := by
    intro q hq
    rcases List.mem_append.mp hq with hq | hq
    · exact h.emitted q hq
    · rw [List.mem_singleton.mp hq]
      exact hp

theorem Running.flashed (h : Running api f s) {flash : φ}
    (hboot : api.boot flash = api.boot s.flash) : Running api f { s with flash := flash } :=
  ⟨hboot.trans h.boot, h.emitted⟩

theorem Running.performLoop (h : Running api f s) (hapi : api.Lawful) (turns nextProgress : ℕ) :
    Running api f (performLoop api turns nextProgress s).2 := by
  induction turns generalizing nextProgress s with
  | zero => exact h
  | succ turns ih =>
      have hboot := hapi.boot_perform s.flash
      rw [Ota.performLoop]
      rcases hperform : api.perform s.flash with ⟨rc, flash⟩
      rw [hperform] at hboot
      have hflashed := h.flashed hboot
      dsimp only
      split
      · split
        · refine ih (hflashed.emit ?_) _
          exact ⟨nofun, nofun⟩
        · exact ih hflashed _
      · exact hflashed

/-- The update ended without a reboot: what boots is as it was, the flag was given back, and one
failure was emitted. -/
structure AutoFailed (api : HttpsOta φ) (f : φ) (s : AutoUpdate φ) : Prop where
  boot : api.boot s.flash = api.boot f
  isUpdating : s.isUpdating = false
  failed : (s.emitted.map OtaProgress.phase).count .failed = 1
  rebooting : Phase.rebooting ∉ s.emitted.map OtaProgress.phase

theorem Running.fail (h : Running api f s) : AutoFailed api f s.fail.2 := by
  have hphases : s.fail.2.emitted.map OtaProgress.phase =
      s.emitted.map OtaProgress.phase ++ [.failed] := List.map_append
  have hnone (phase : Phase) (hphase : ∀ p ∈ s.emitted, p.phase ≠ phase) :
      phase ∉ s.emitted.map OtaProgress.phase := by
    intro hmem
    obtain ⟨p, hp, heq⟩ := List.mem_map.mp hmem
    exact hphase p hp heq
  refine ⟨h.boot, rfl, ?_, ?_⟩
  · rw [hphases, List.count_append,
      List.count_eq_zero.mpr (hnone .failed fun p hp => (h.emitted p hp).1)]
    rfl
  · rw [hphases, List.mem_append, not_or]
    exact ⟨hnone .rebooting fun p hp => (h.emitted p hp).2, by simp⟩

/-! ### The end of the update -/

/-- What the flash holds behind the download has the digest. -/
def Verified (api : HttpsOta φ) (heap : Heap) (hex : List Char) (flash : φ) : Prop :=
  ∃ part, api.nextUpdatePartition flash = some part ∧ 0 < api.imageLenRead flash ∧
    (heap.md = true ∧ heap.buf = true) ∧
      Readable api part (api.imageLenRead flash).toNat flash 0 ∧
        (hexLowercase (sha256 ((api.contents flash part).take
          (api.imageLenRead flash).toNat))).toList = hex

/-- The partition which boots holds an image with that digest. -/
def Installed (api : HttpsOta φ) (hex : List Char) (flash : φ) : Prop :=
  ∃ image, image ≠ [] ∧ image <+: api.contents flash (api.boot flash) ∧
    (hexLowercase (sha256 image)).toList = hex

theorem Verified.installed (hapi : api.Lawful) {heap : Heap} {hex : List Char} {flash : φ}
    (h : Verified api heap hex flash) (hfinish : (api.finish flash).1 = espOk) :
    Installed api hex (api.finish flash).2 := by
  obtain ⟨part, hpart, hlen, -, hread, hhex⟩ := h
  obtain ⟨hboot, hcontents⟩ := hapi.finish_ok hfinish hpart
  have hpos : 0 < (api.imageLenRead flash).toNat := by omega
  have hfirst := ((readable_iff hpos).mp hread).1
  obtain ⟨bytes, hbytes⟩ := Option.ne_none_iff_exists'.mp hfirst
  obtain ⟨heq, hlength⟩ := hapi.partitionRead_eq hbytes
  refine ⟨(api.contents flash part).take (api.imageLenRead flash).toNat, ?_, ?_, hhex⟩
  · intro hnil
    rcases List.take_eq_nil_iff.mp hnil with hzero | hempty
    · omega
    · rw [hempty] at heq
      have hchunk : 0 < kChunk := by decide
      simp only [heq, List.drop_nil, List.take_nil, List.length_nil] at hlength
      omega
  · rw [hboot, hcontents]
    exact List.take_prefix _ _

/-- What the update leaves, when `good` is what it asks of the flash and the platform. -/
structure AutoPost (api : HttpsOta φ) (f : φ) (hex : List Char) (good : Prop)
    (out : AutoEnd × AutoUpdate φ) : Prop where
  rebooting_iff : out.1 = .rebooting ↔ good
  installed : out.1 = .rebooting → Installed api hex out.2.flash
  failed : out.1 = .failed → AutoFailed api f out.2
  performing : out.1 = .performing → Running api f out.2
  loud : out.1 ≠ .quiet

theorem Running.post_fail (h : Running api f s) {hex : List Char} {good : Prop} (hbad : ¬ good) :
    AutoPost api f hex good s.fail where
  rebooting_iff := ⟨nofun, fun hgood => absurd hgood hbad⟩
  installed := nofun
  failed _ := h.fail
  performing := nofun
  loud := nofun

theorem Running.abort (h : Running api f s) (hapi : api.Lawful) :
    Running api f { s with flash := api.abort s.flash } :=
  h.flashed (hapi.boot_abort s.flash)

theorem Running.verifyUpdate (h : Running api f s) (hapi : api.Lawful) (env : AutoEnv)
    (hex : List Char) :
    AutoPost api f hex
      (Verified api env.heap hex s.flash ∧ (api.finish s.flash).1 = espOk)
      (verifyUpdate api env hex s) := by
  have hactual : ((api.nextUpdatePartition s.flash).bind fun part =>
      if 0 < api.imageLenRead s.flash then
        hashOtaPartition api env.heap part (api.imageLenRead s.flash).toNat s.flash
      else none) = some hex ↔ Verified api env.heap hex s.flash := by
    rw [Option.bind_eq_some_iff, Verified]
    refine exists_congr fun part => and_congr_right fun _ => ?_
    by_cases hlen : 0 < api.imageLenRead s.flash
    · rw [if_pos hlen, hashOtaPartition_eq_some_iff hapi]
      simp [hlen]
    · rw [if_neg hlen]
      simp [hlen]
  have hemitted : Running api f
      (s.emit ⟨(api.imageLenRead s.flash).toNat, s.prog.total, .verifying⟩) :=
    h.emit ⟨nofun, nofun⟩
  rw [Ota.verifyUpdate]
  dsimp only
  by_cases hverified : Verified api env.heap hex s.flash
  · rw [if_neg (not_not.mpr (hactual.mpr hverified))]
    by_cases hok : (api.finish s.flash).1 = espOk
    · rw [if_neg (not_not.mpr hok)]
      exact ⟨⟨fun _ => ⟨hverified, hok⟩, fun _ => rfl⟩, fun _ => hverified.installed hapi hok,
        nofun, nofun, nofun⟩
    · rw [if_pos hok]
      exact (hemitted.flashed (hapi.boot_finish hok)).post_fail fun hgood => hok hgood.2
  · rw [if_pos fun hsame => hverified (hactual.mp hsame)]
    exact (hemitted.abort hapi).post_fail fun hgood => hverified hgood.1

/-- The image was downloaded into the flash, all of it. -/
def Downloaded (api : HttpsOta φ) (fileUrl : String) (turns : ℕ) (f flash : φ) : Prop :=
  (api.otaBegin fileUrl f).1 = espOk ∧
    (∃ n ≤ turns, Performs api n (api.otaBegin fileUrl f).2 flash) ∧
      api.isCompleteDataReceived flash = true

/-- The image was downloaded, the flash holds what was announced, and the platform switches. -/
def Succeeds (api : HttpsOta φ) (heap : Heap) (fileUrl : String) (hex : List Char) (turns : ℕ)
    (f : φ) : Prop :=
  ∃ flash, Downloaded api fileUrl turns f flash ∧ Verified api heap hex flash ∧
    (api.finish flash).1 = espOk

theorem AutoPost.congr {hex : List Char} {good good' : Prop} {out : AutoEnd × AutoUpdate φ}
    (h : AutoPost api f hex good out) (hiff : good ↔ good') : AutoPost api f hex good' out :=
  ⟨h.rebooting_iff.trans hiff, h.installed, h.failed, h.performing, h.loud⟩

theorem Running.performed (h : Running api f s) (hapi : api.Lawful) (env : AutoEnv)
    (hex : List Char) (rc : Option EspErr) :
    AutoPost api f hex
      (rc = some espOk ∧ api.isCompleteDataReceived s.flash = true ∧
        Verified api env.heap hex s.flash ∧ (api.finish s.flash).1 = espOk)
      (performed api env hex rc s) := by
  cases rc with
  | none =>
      refine ⟨⟨nofun, fun hgood => ?_⟩, nofun, nofun, fun _ => h, nofun⟩
      cases hgood.1
  | some rc =>
      rw [Ota.performed]
      by_cases hrc : rc = espOk
      · rw [if_neg (not_not.mpr hrc)]
        by_cases hcomplete : api.isCompleteDataReceived s.flash = false
        · rw [if_pos hcomplete]
          refine (h.abort hapi).post_fail fun hgood => ?_
          rw [hcomplete] at hgood
          cases hgood.2.1
        · rw [if_neg hcomplete]
          refine (h.verifyUpdate hapi env hex).congr ?_
          simp [hrc, hcomplete]
      · rw [if_pos hrc]
        exact (h.abort hapi).post_fail fun hgood => hrc (Option.some.inj hgood.1)

theorem Running.download (h : Running api f s) (hapi : api.Lawful) (env : AutoEnv) (turns : ℕ)
    (fileUrl : String) (hex : List Char) :
    AutoPost api f hex (Succeeds api env.heap fileUrl hex turns s.flash)
      (download api env turns fileUrl hex s) := by
  have hstarted : Running api f (s.emit ⟨0, 0, .starting⟩) := h.emit ⟨nofun, nofun⟩
  have hbegun := hstarted.flashed (hapi.boot_otaBegin fileUrl s.flash)
  rw [Ota.download]
  dsimp only
  by_cases hrc : (api.otaBegin fileUrl s.flash).1 = espOk
  · rw [if_neg (not_not.mpr hrc)]
    let t := AutoUpdate.emit { s.emit ⟨0, 0, .starting⟩ with
      flash := (api.otaBegin fileUrl s.flash).2 }
      ⟨0, (api.imageSize (api.otaBegin fileUrl s.flash).2).toNat, .writing⟩
    have ht : Running api f t := hbegun.emit ⟨nofun, nofun⟩
    have hloop := ht.performLoop hapi turns kProgressStepBytes
    have hends := @performLoop_ok_iff φ api turns kProgressStepBytes t
    refine (hloop.performed hapi env hex _).congr ⟨?_, ?_⟩
    · rintro ⟨hok, hcomplete, hverified, hfinish⟩
      exact ⟨_, ⟨hrc, (hends _).mp ⟨hok, rfl⟩, hcomplete⟩, hverified, hfinish⟩
    · rintro ⟨flash, ⟨-, hperforms, hcomplete⟩, hverified, hfinish⟩
      obtain ⟨hok, rfl⟩ := (hends flash).mpr hperforms
      exact ⟨hok, hcomplete, hverified, hfinish⟩
  · rw [if_pos hrc]
    refine hbegun.post_fail fun hgood => ?_
    obtain ⟨flash, hdownloaded, -⟩ := hgood
    exact hrc hdownloaded.1

/-! ### The whole update -/

/-- The release has the image at `fileUrl` and, at another address, a text whose first digits are
the digest. -/
def Announced (env : AutoEnv) (fileUrl : String) (hex : List Char) : Prop :=
  ∃ body checksumUrl text, httpGetString env.releaseUrl kReleaseJsonCap
      (env.release env.releaseUrl) = .ok body ∧
    parseReleaseJson env.parse body env.firmwareAsset = ⟨fileUrl, checksumUrl⟩ ∧
      fileUrl ≠ "" ∧ checksumUrl ≠ "" ∧
        httpGetString checksumUrl kChecksumCap (env.checksum checksumUrl) = .ok text ∧
          FirstDigits text hex

theorem resolveUpdate_eq_some_iff (env : AutoEnv) (fileUrl : String) (hex : List Char) :
    resolveUpdate env = some (fileUrl, hex) ↔ Announced env fileUrl hex := by
  have hurl {body : List Char} (hbody : httpGetString env.releaseUrl kReleaseJsonCap
      (env.release env.releaseUrl) = .ok body) : env.releaseUrl ≠ "" := by
    intro hempty
    rw [httpGetString, if_pos hempty] at hbody
    cases hbody
  constructor
  · intro h
    rw [resolveUpdate] at h
    split at h
    · cases h
    · split at h
      · cases h
      · rename_i body hbody
        dsimp only at h
        split at h
        · cases h
        · rename_i hknown
          rw [not_or] at hknown
          split at h
          · cases h
          · rename_i text htext
            obtain ⟨digits, hdigits, heq⟩ := Option.map_eq_some_iff.mp h
            obtain ⟨hfile, rfl⟩ := Prod.mk.inj heq
            refine ⟨body, _, text, hbody, ?_, hfile ▸ hknown.1, hknown.2, htext,
              (extractSha256Hex_eq_some_iff text digits).mp hdigits⟩
            rw [← hfile]
  · rintro ⟨body, checksumUrl, text, hbody, hinfo, hfile, hchecksum, htext, hdigits⟩
    rw [resolveUpdate, if_neg (hurl hbody), hbody]
    dsimp only
    rw [hinfo, if_neg (not_or.mpr ⟨hfile, hchecksum⟩), htext]
    dsimp only
    rw [(extractSha256Hex_eq_some_iff text hex).mpr hdigits]
    rfl

/-- The digest which the release gives for the image of that name. -/
def Published (env : AutoEnv) (hex : List Char) : Prop :=
  ∃ body fileUrl checksumUrl text, httpGetString env.releaseUrl kReleaseJsonCap
      (env.release env.releaseUrl) = .ok body ∧
    Listed env.parse body env.firmwareAsset fileUrl ∧
      Listed env.parse body (env.firmwareAsset ++ ".sha256") checksumUrl ∧
        httpGetString checksumUrl kChecksumCap (env.checksum checksumUrl) = .ok text ∧
          FirstDigits text hex

theorem Announced.published {env : AutoEnv} {fileUrl : String} {hex : List Char}
    (h : Announced env fileUrl hex) : Published env hex := by
  obtain ⟨body, checksumUrl, text, hbody, hinfo, hfile, hchecksum, htext, hdigits⟩ := h
  obtain ⟨himage, hsha⟩ := listed_of_parseReleaseJson hinfo hfile hchecksum
  exact ⟨body, fileUrl, checksumUrl, text, hbody, himage, hsha, htext, hdigits⟩

/-- What an automatic update leaves, up to `turns` turns of its download. -/
structure AutoExact (api : HttpsOta φ) (env : AutoEnv) (turns : ℕ) (m : OtaManager φ)
    (out : AutoEnd × AutoUpdate φ) : Prop where
  rebooting_iff : out.1 = .rebooting ↔ ∃ fileUrl hex, Announced env fileUrl hex ∧
    Succeeds api env.heap fileUrl hex turns m.flash
  installed : out.1 = .rebooting → ∃ hex, Published env hex ∧ Installed api hex out.2.flash
  kept : out.1 ≠ .rebooting → api.boot out.2.flash = api.boot m.flash
  released : out.1 = .quiet ∨ out.1 = .failed → out.2.isUpdating = false
  failedOnce : out.1 = .failed → (out.2.emitted.map OtaProgress.phase).count .failed = 1 ∧
    Phase.rebooting ∉ out.2.emitted.map OtaProgress.phase
  quiet : out.1 = .quiet → out.2.emitted = []

/-- An automatic update reboots if and only if the release announces an image and a digest, the
image was downloaded and what the flash holds of it has the digest.  Then what boots is an image
with the announced digest, and otherwise what boots is as it was. -/
theorem runAutoUpdate_exact (hapi : api.Lawful) (env : AutoEnv) (turns : ℕ) (m : OtaManager φ) :
    AutoExact api env turns m (runAutoUpdate api env turns m) := by
  rw [runAutoUpdate]
  cases hresolved : resolveUpdate env with
  | none =>
      have hnone (fileUrl : String) (hex : List Char) : ¬ Announced env fileUrl hex := by
        intro hannounced
        rw [(resolveUpdate_eq_some_iff env fileUrl hex).mpr hannounced] at hresolved
        cases hresolved
      refine ⟨⟨nofun, ?_⟩, nofun, fun _ => rfl, fun _ => rfl, nofun, fun _ => rfl⟩
      rintro ⟨fileUrl, hex, hannounced, -⟩
      exact absurd hannounced (hnone fileUrl hex)
  | some found =>
      obtain ⟨fileUrl, hex⟩ := found
      have hannounced := (resolveUpdate_eq_some_iff env fileUrl hex).mp hresolved
      have hstart : Running api m.flash ({ m with } : AutoUpdate φ) := ⟨rfl, nofun⟩
      have hpost := hstart.download hapi env turns fileUrl hex
      dsimp only
      generalize download api env turns fileUrl hex _ = out at hpost ⊢
      refine ⟨hpost.rebooting_iff.trans ⟨fun hsucceeds => ⟨_, _, hannounced, hsucceeds⟩, ?_⟩,
        fun h => ⟨hex, hannounced.published, hpost.installed h⟩, fun h => ?_, fun h => ?_,
        fun h => ⟨(hpost.failed h).failed, (hpost.failed h).rebooting⟩,
        fun h => absurd h hpost.loud⟩
      · rintro ⟨fileUrl', hex', hannounced', hsucceeds⟩
        have hsame := (resolveUpdate_eq_some_iff env fileUrl' hex').mpr hannounced'
        rw [hresolved] at hsame
        cases hsame
        exact hsucceeds
      · cases hend : out.1 with
        | quiet => exact absurd hend hpost.loud
        | failed => exact (hpost.failed hend).boot
        | rebooting => exact absurd hend h
        | performing => exact (hpost.performing hend).boot
      · exact (hpost.failed (h.resolve_left hpost.loud)).isUpdating

/-- A flash with two partitions, and the pieces which are still to be downloaded. -/
structure Downloading where
  bootsSecond : Bool := false
  image : List UInt8 := []
  pieces : List (List UInt8) := []

def slotOf (second : Bool) : Partition :=
  if second then ⟨4096, 8⟩ else ⟨0, 8⟩

def pieceByPiece : HttpsOta Downloading where
  boot f := slotOf f.bootsSecond
  contents f _ := f.image
  nextUpdatePartition f := some (slotOf !f.bootsSecond)
  otaBegin _ f := (espOk, f)
  imageSize f := f.pieces.flatten.length
  perform f :=
    match f.pieces with
    | [] => (espOk, f)
    | piece :: rest =>
        (espErrHttpsOtaInProgress, { f with image := f.image ++ piece, pieces := rest })
  isCompleteDataReceived f := f.pieces.isEmpty
  imageLenRead f := f.image.length
  abort f := f
  finish f := (espOk, { f with bootsSecond := !f.bootsSecond })
  partitionRead _ offset want f :=
    if offset + want ≤ f.image.length then some ((f.image.drop offset).take want) else none

theorem pieceByPiece_lawful : pieceByPiece.Lawful where
  boot_otaBegin _ _ := rfl
  boot_perform f := by
    cases hpieces : f.pieces <;> simp [pieceByPiece, hpieces]
  boot_abort _ := rfl
  boot_finish h := absurd rfl h
  finish_ok _ hpart := ⟨Option.some.inj hpart, rfl⟩
  partitionRead_eq := by
    intro part offset want f bytes h
    simp only [pieceByPiece] at h
    split at h
    · rename_i hfits
      cases h
      refine ⟨rfl, ?_⟩
      rw [List.length_take, List.length_drop]
      omega
    · cases h

/-- A release with an image and its checksum. -/
def releaseOfAbc : AutoEnv where
  releaseUrl := "r"
  firmwareAsset := "a"
  release _ := { data := [['j']] }
  checksum _ := { data := [['\n'], hexOfAbc ++ [' ', 'a']] }
  parse _ := some (.object [("Assets", .array
    [.object [("name", .string "a"), ("browser_download_url", .string "f")],
      .object [("name", .string "a.sha256"), ("browser_download_url", .string "c")]])])
  heap := ⟨true, true⟩

theorem runAutoUpdate_exact_abc :
    AutoExact pieceByPiece releaseOfAbc 3 ⟨true, { pieces := [[97], [98, 99]] }⟩
        (runAutoUpdate pieceByPiece releaseOfAbc 3 ⟨true, { pieces := [[97], [98, 99]] }⟩) ∧
      (runAutoUpdate pieceByPiece releaseOfAbc 3 ⟨true, { pieces := [[97], [98, 99]] }⟩).1 =
        .rebooting :=
  ⟨runAutoUpdate_exact pieceByPiece_lawful _ _ _, by decide +kernel⟩

end Ota

end BtClock
