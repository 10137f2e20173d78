import BtClock.Arith.Bits
import BtClock.Coding.Fields
import BtClock.Webserver.ShowRequests
import BtClock.Wifi.TryConnect

/-!
# The credentials of the portal

The form carries the name and the password of a network.  They are read from the body as they
were typed, and the station gets what its arrays hold besides a NUL.
-/

namespace BtClock

namespace ProvisioningServer

open Fields Ota Reading ShowText Transition Webserver

def kAmpersand : UInt8 := 0x26

/-- The value of a digit of either case. -/
def hex (x : UInt8) : Option ℕ :=
  if 0x30 ≤ x ∧ x ≤ 0x39 then some (x.toNat - 0x30)
  else if 0x61 ≤ x ∧ x ≤ 0x66 then some (x.toNat - 0x61 + 10)
  else if 0x41 ≤ x ∧ x ≤ 0x46 then some (x.toNat - 0x41 + 10)
  else none

/-- The byte of the two digits behind a `%`. -/
def escaped : List UInt8 → Option UInt8
  | x :: y :: _ => do
      let hi ← hex x
      let lo ← hex y
      return UInt8.ofNat (hi <<< 4 ||| lo)
  | _ => none

/-- A `%` which no two digits follow stands for itself. -/
def urlDecode : List UInt8 → List UInt8
  | [] => []
  | c :: rest =>
      if c = 0x2B then 0x20 :: urlDecode rest
      else if c = 0x25 then
        match escaped rest with
        | some b => b :: urlDecode (rest.drop 2)
        | none => c :: urlDecode rest
      else c :: urlDecode rest
termination_by s => s.length
decreasing_by all_goals simp only [List.length_cons, List.length_drop]; omega

/-- The loop over the occurrences of the needle. -/
def formFieldFrom (body needle : List UInt8) (pos : ℕ) : List UInt8 :=
  if _hpos : pos < body.length then
    match _heq : findFrom needle body pos with
    | none => []
    | some eq =>
        if eq ≠ 0 ∧ body[eq - 1]? ≠ some kAmpersand then formFieldFrom body needle (eq + 1)
        else
          let vstart := eq + needle.length
          match findFrom [kAmpersand] body vstart with
          | none => urlDecode (body.drop vstart)
          | some vend => urlDecode ((body.drop vstart).take (vend - vstart))
  else []
termination_by body.length - pos
decreasing_by
  have hle := (findFrom_eq_some _heq).1
  omega

def formField (body key : List UInt8) : List UInt8 :=
  formFieldFrom body (key ++ [0x3D]) 0

/-- `ssid` -/
def kSsid : List UInt8 := [0x73, 0x73, 0x69, 0x64]

/-- `pw` -/
def kPw : List UInt8 := [0x70, 0x77]

def kMaxBody : ℕ := 512

/-- `httpd_resp_send_err` with `HTTPD_400_BAD_REQUEST`. -/
def sendBadRequest (msg : String) : Reply where
  status := "400 Bad Request"
  contentType := "text/html"
  body := msg

/-- `HandleWifi` up to the call of `TryConnect`. -/
def credentials (req : HttpRequest) : Except Reply (List UInt8 × List UInt8) :=
  if req.contentLen = 0 ∨ kMaxBody < req.contentLen then .error (sendBadRequest "invalid body")
  else
    match (readLoop req.contentLen req.body).1 with
    | none => .error (sendInternalError "recv")
    | some body =>
        let ssid := formField body kSsid
        let pw := formField body kPw
        if ssid = [] then .error (sendBadRequest "ssid required") else .ok (ssid, pw)

/-- Why the credentials were rejected. -/
def rejectCode (tryErr : EspErr) (reason : UInt8) : String :=
  if tryErr = espErrTimeout then "timeout"
  else if reason = 201 then "no_ap_found"
  else if reason = 202 then "auth_fail"
  else if reason = 203 then "assoc_fail"
  else if reason = 204 then "handshake_timeout"
  else if reason = 205 then "connection_fail"
  else "unknown"

/-- What `HandleWifi` answers, and the credentials which it saves.  `tryConnect` gives the code of
`TryConnect` and the reason of the last disconnect. -/
def handleWifi (tryConnect : CString → CString → EspErr × UInt8) (req : HttpRequest) :
    Reply × Option (List UInt8 × List UInt8) :=
  match credentials req with
  | .error reply => (reply, none)
  | .ok (ssid, pw) =>
      let (tryErr, reason) := tryConnect (cText ssid) (cText pw)
      if tryErr = espOk then ({ body := "\x7b\"ok\":true\x7d" }, some (ssid, pw))
      else
        ({ status := "400 Bad Request"
           body := "\x7b\"ok\":false,\"code\":\"" ++ rejectCode tryErr reason ++ "\",\"reason\":" ++
             toString reason.toNat ++ "\x7d" }, none)

/-- What `esp_wifi_set_config` is called with next. -/
def nextConfig : Wifi.Caller → Option StaConfig
  | .applying cfg .setConfig _ => some cfg
  | _ => none

/-- What the driver is configured with: `TryConnect` with the credentials, up to
`esp_wifi_set_config`. -/
def configured (s : Wifi.System) (start : DriverCode) (req : HttpRequest) : Option StaConfig :=
  match credentials req with
  | .error _ => none
  | .ok (ssid, pw) =>
      nextConfig (run Wifi.System.step s
        [.tryConnect (cText ssid) (cText pw) start, .call .go]).caller

/-- Only credentials which were verified are saved. -/
theorem verified_of_saved {tryConnect : CString → CString → EspErr × UInt8} {req : HttpRequest}
    {ssid pw : List UInt8} (h : (handleWifi tryConnect req).2 = some (ssid, pw)) :
    credentials req = .ok (ssid, pw) ∧ (tryConnect (cText ssid) (cText pw)).1 = espOk := by
  rw [handleWifi] at h
  split at h
  · cases h
  · rename_i ssid' pw' hcredentials
    dsimp only at h
    split at h
    · rename_i hok
      cases h
      exact ⟨hcredentials, hok⟩
    · cases h

/-! ### What a form carries -/

/-- A value as it stands in a form: any byte may be escaped, and a blank may be a plus. -/
inductive FormEncodes : List UInt8 → List UInt8 → Prop
  | nil : FormEncodes [] []
  | plain {b : UInt8} {raw s : List UInt8} (hplus : b ≠ 0x2B) (hpercent : b ≠ 0x25)
      (hamp : b ≠ kAmpersand) (h : FormEncodes raw s) : FormEncodes (b :: raw) (b :: s)
  | blank {raw s : List UInt8} (h : FormEncodes raw s) : FormEncodes (0x2B :: raw) (0x20 :: s)
  | escape {x y : UInt8} {hi lo : ℕ} {raw s : List UInt8} (hx : hex x = some hi)
      (hy : hex y = some lo) (h : FormEncodes raw s) :
      FormEncodes (0x25 :: x :: y :: raw) (UInt8.ofNat (16 * hi + lo) :: s)

/-- Of the fields between the ampersands one has the key, and its value stands for `s`. -/
def HasField (fields : List (List UInt8)) (key s : List UInt8) : Prop :=
  ∃ before raw after, fields = before ++ (key ++ [0x3D] ++ raw) :: after ∧ FormEncodes raw s ∧
    ∀ f ∈ before ++ after, ¬ key ++ [0x3D] <+: f

/-- The body is a form with the credentials, whatever the order of the fields, and other fields
between them. -/
def CarriesCredentials (body ssid pw : List UInt8) : Prop :=
  ∃ fields, body = [kAmpersand].intercalate fields ∧ (∀ f ∈ fields, kAmpersand ∉ f) ∧
    HasField fields kSsid ssid ∧ HasField fields kPw pw

/-! ### The value of a field -/

theorem hex_lt {x : UInt8} {v : ℕ} (h : hex x = some v) : v < 16 := by
  simp only [hex, UInt8.le_iff_toNat_le] at h
  split_ifs at h with hdigit hlower hupper <;> cases h
  · have hle : x.toNat ≤ 0x39 := hdigit.2
    omega
  · have hle : x.toNat ≤ 0x66 := hlower.2
    omega
  · have hle : x.toNat ≤ 0x46 := hupper.2
    omega

theorem kAmpersand_notMem_of_hex {x : UInt8} {v : ℕ} (h : hex x = some v) : x ≠ kAmpersand := by
  rintro rfl
  cases h

theorem FormEncodes.notMem {raw s : List UInt8} (h : FormEncodes raw s) : kAmpersand ∉ raw := by
  induction h with
  | nil => exact List.not_mem_nil
  | plain hplus hpercent hamp h ih => exact fun hmem => (List.mem_cons.mp hmem).elim hamp.symm ih
  | blank h ih => exact fun hmem => (List.mem_cons.mp hmem).elim (by decide) ih
  | escape hx hy h ih =>
      have hx' := kAmpersand_notMem_of_hex hx
      have hy' := kAmpersand_notMem_of_hex hy
      simp only [List.mem_cons, not_or]
      exact ⟨by decide, hx'.symm, hy'.symm, ih⟩

/-- The decoder undoes the encoding. -/
theorem FormEncodes.urlDecode {raw s : List UInt8} (h : FormEncodes raw s) :
    ProvisioningServer.urlDecode raw = s := by
  induction h with
  | nil => rw [ProvisioningServer.urlDecode]
  | plain hplus hpercent hamp h ih =>
      rw [ProvisioningServer.urlDecode, if_neg hplus, if_neg hpercent, ih]
  | blank h ih => rw [ProvisioningServer.urlDecode, if_pos rfl, ih]
  | @escape x y hi lo raw s hx hy h ih =>
      have hne : ¬ (0x25 : UInt8) = 0x2B := by decide
      have hjoin : hi <<< 4 ||| lo = 16 * hi + lo := by
        have hpow : 2 ^ 4 = 16 := rfl
        rw [Bits.shiftLeft_or_eq_add (hex_lt hy), Nat.mul_comm, hpow]
      have hescaped : escaped (x :: y :: raw) = some (UInt8.ofNat (16 * hi + lo)) := by
        simp only [escaped, hx, hy, Option.bind_eq_bind, Option.bind_some, hjoin, Option.pure_def]
      rw [ProvisioningServer.urlDecode, if_neg hne, if_pos rfl, hescaped]
      exact congrArg _ ih

/-- The value ends at the next ampersand. -/
theorem value_eq (body : List UInt8) (vstart : ℕ) :
    (match findFrom [kAmpersand] body vstart with
      | none => urlDecode (body.drop vstart)
      | some vend => urlDecode ((body.drop vstart).take (vend - vstart))) =
      urlDecode ((body.drop vstart).takeWhile (· ≠ kAmpersand)) := by
  rw [← take_find_singleton, findFrom]
  cases find [kAmpersand] (body.drop vstart) with
  | none => rfl
  | some i => simp only [Option.map_some, Nat.add_sub_cancel_left]

/-- The loop ends at the first hit. -/
theorem formFieldFrom_of_firstHit {body needle : List UInt8} {i : ℕ}
    (h : FirstHit kAmpersand needle body i) (hneedle : needle ≠ []) (pos : ℕ) (hle : pos ≤ i) :
    formFieldFrom body needle pos =
      urlDecode ((body.drop (i + needle.length)).takeWhile (· ≠ kAmpersand)) := by
  have hin : i < body.length := by
    by_contra hge
    have hpre := h.1.1
    rw [List.drop_eq_nil_of_le (Nat.le_of_not_lt hge)] at hpre
    exact hneedle (List.prefix_nil.mp hpre)
  have hends : ∀ {pos eq : ℕ}, findFrom needle body pos = some eq →
      ¬ (eq ≠ 0 ∧ body[eq - 1]? ≠ some kAmpersand) → pos ≤ i →
        (body.drop (eq + needle.length)).takeWhile (· ≠ kAmpersand) =
          (body.drop (i + needle.length)).takeWhile (· ≠ kAmpersand) := by
    intro pos eq heq hstart hle
    obtain ⟨_, hpre, hfirst⟩ := findFrom_eq_some heq
    have hhit : Hit kAmpersand needle body eq := ⟨hpre, by
      by_contra hnot
      exact hstart ⟨fun hzero => hnot (Or.inl hzero), fun hsep => hnot (Or.inr hsep)⟩⟩
    have hge : i ≤ eq := Nat.le_of_not_lt fun hlt => h.2 eq hlt hhit
    have heqle : eq ≤ i := Nat.le_of_not_lt fun hlt => hfirst i hle hlt h.1.1
    rw [Nat.le_antisymm heqle hge]
  fun_induction formFieldFrom body needle pos with
  | case1 pos hpos hnone => exact absurd h.1.1 (findFrom_eq_none hnone hle hin.le)
  | case2 pos hpos eq heq hskip ih =>
      obtain ⟨hge, hpre, hfirst⟩ := findFrom_eq_some heq
      have hne : eq ≠ i := by
        rintro rfl
        exact h.1.2.elim hskip.1 hskip.2
      have heqle : eq ≤ i := Nat.le_of_not_lt fun hlt => hfirst i hle hlt h.1.1
      exact ih (by omega)
  | case3 pos hpos eq heq hstart vstart hnone =>
      have hvalue := value_eq body vstart
      rw [hnone] at hvalue
      exact hvalue.trans (congrArg urlDecode (hends heq hstart hle))
  | case4 pos hpos eq heq hstart vstart vend hsome =>
      have hvalue := value_eq body vstart
      rw [hsome] at hvalue
      exact hvalue.trans (congrArg urlDecode (hends heq hstart hle))
  | case5 pos hpos => exact absurd (Nat.lt_of_le_of_lt hle hin) hpos

/-- The field of a form is found, and its value is decoded. -/
theorem formField_of_hasField {fields : List (List UInt8)} {key s : List UInt8}
    (hkey : kAmpersand ∉ key) (hfields : ∀ f ∈ fields, kAmpersand ∉ f)
    (h : HasField fields key s) : formField ([kAmpersand].intercalate fields) key = s := by
  obtain ⟨before, raw, after, rfl, hencodes, hothers⟩ := h
  have hneedle : kAmpersand ∉ key ++ [0x3D] := by
    rw [List.mem_append, not_or]
    exact ⟨hkey, by decide⟩
  have hbefore : ∀ f ∈ before, kAmpersand ∉ f ∧ ¬ key ++ [0x3D] <+: f := fun f hf =>
    ⟨hfields f (List.mem_append_left _ hf), hothers f (List.mem_append_left _ hf)⟩
  obtain ⟨i, hfirst, hvalue⟩ :=
    exists_firstHit after hneedle hbefore hencodes.notMem
  rw [formField, formFieldFrom_of_firstHit hfirst (by simp) 0 (Nat.zero_le i), hvalue,
    hencodes.urlDecode]

/-! ### The station -/

section Delivered

variable {s : Wifi.System} {start : DriverCode} {req : HttpRequest} {body ssid pw : List UInt8}

/-- The form gives the credentials, and the driver what is left of them before a NUL. -/
theorem configured_of_carries (hfree : s.caller.free = true)
    (hstart : s.wifi.started = true ∨ start.rc = espOk) (hdelivers : Delivers req body)
    (hle : body.length ≤ kMaxBody) (hcarries : CarriesCredentials body ssid pw)
    (hssid : ssid ≠ []) :
    formField body kSsid = ssid ∧ formField body kPw = pw ∧
      configured s start req = some (staConfig (cText ssid) (cText pw)) := by
  obtain ⟨fields, hbody, hfields, hhasSsid, hhasPw⟩ := hcarries
  have hreadSsid : formField body kSsid = ssid := by
    rw [hbody]
    exact formField_of_hasField (by decide) hfields hhasSsid
  have hreadPw : formField body kPw = pw := by
    rw [hbody]
    exact formField_of_hasField (by decide) hfields hhasPw
  refine ⟨hreadSsid, hreadPw, ?_⟩
  have hne : body.length ≠ 0 := by
    intro hzero
    rw [List.length_eq_zero_iff.mp hzero] at hreadSsid
    exact hssid (hreadSsid.symm.trans (by rw [formField, formFieldFrom]; rfl))
  have hsize : ¬ (body.length = 0 ∨ kMaxBody < body.length) := by omega
  have hloop := readLoop_pieces hdelivers.pieces
  rw [hdelivers.pending] at hloop
  have hcredentials : credentials req = .ok (ssid, pw) := by
    simp only [credentials, hdelivers.contentLen, if_neg hsize, hloop, hreadSsid, hreadPw,
      if_neg hssid]
  have hstarted : ¬ (s.wifi.started = false ∧ start.rc ≠ espOk) := by
    rintro ⟨hoff, hrc⟩
    rcases hstart with hon | hok
    · rw [hon] at hoff
      cases hoff
    · exact hrc hok
  simp only [configured, hcredentials, run_cons, run_nil, Wifi.System.step, if_pos hfree,
    Wifi.System.tryConnect, if_neg hstarted, Wifi.System.stepCaller, nextConfig]

/-- A network is configured as it was typed exactly when the arrays hold its name and its password
besides a NUL. -/
theorem configured_as_typed_iff (hfree : s.caller.free = true)
    (hstart : s.wifi.started = true ∨ start.rc = espOk) (hdelivers : Delivers req body)
    (hle : body.length ≤ kMaxBody) (hcarries : CarriesCredentials body ssid pw)
    (hssid : ssid ≠ []) (hssidNul : 0 ∉ ssid) (hpwNul : 0 ∉ pw) :
    (formField body kSsid = ssid ∧ formField body kPw = pw ∧
        ∃ cfg, configured s start req = some cfg ∧ cfg.ssid = ssid ∧ cfg.password = pw) ↔
      ssid.length ≤ 31 ∧ pw.length ≤ 63 := by
  obtain ⟨hreadSsid, hreadPw, hconfigured⟩ :=
    configured_of_carries hfree hstart hdelivers hle hcarries hssid
  rw [cText_of_notMem hssidNul, cText_of_notMem hpwNul] at hconfigured
  constructor
  · rintro ⟨-, -, cfg, hcfg, hcfgSsid, hcfgPw⟩
    obtain rfl := Option.some.inj (hconfigured.symm.trans hcfg)
    exact ⟨(List.take_eq_self_iff ssid).mp hcfgSsid, (List.take_eq_self_iff pw).mp hcfgPw⟩
  · rintro ⟨hssidLe, hpwLe⟩
    exact ⟨hreadSsid, hreadPw, _, hconfigured, List.take_of_length_le hssidLe,
      List.take_of_length_le hpwLe⟩

end Delivered

/-- The password first, without an escape. -/
def plainForm (ssid pw : List UInt8) : List UInt8 :=
  [kAmpersand].intercalate [kPw ++ [0x3D] ++ pw, kSsid ++ [0x3D] ++ ssid]

def formRequest (body : List UInt8) : HttpRequest where
  contentLen := body.length
  body := [.got body]

theorem formEncodes_self {s : List UInt8} (h : ∀ b ∈ s, b ≠ 0x2B ∧ b ≠ 0x25 ∧ b ≠ kAmpersand) :
    FormEncodes s s := by
  induction s with
  | nil => exact .nil
  | cons b s ih =>
      obtain ⟨hplus, hpercent, hamp⟩ := h b List.mem_cons_self
      exact .plain hplus hpercent hamp (ih fun c hc => h c (List.mem_cons_of_mem _ hc))

theorem delivers_formRequest {body : List UInt8} (h : body ≠ []) :
    Delivers (formRequest body) body where
  contentLen := rfl
  pending := List.append_nil body
  pieces := by
    intro r hr
    exact ⟨body, h, List.mem_singleton.mp hr⟩

theorem carries_plainForm {ssid pw : List UInt8}
    (hssid : ∀ b ∈ ssid, b ≠ 0x2B ∧ b ≠ 0x25 ∧ b ≠ kAmpersand)
    (hpw : ∀ b ∈ pw, b ≠ 0x2B ∧ b ≠ 0x25 ∧ b ≠ kAmpersand) :
    CarriesCredentials (plainForm ssid pw) ssid pw := by
  have hssidFree := (formEncodes_self hssid).notMem
  have hpwFree := (formEncodes_self hpw).notMem
  refine ⟨_, rfl, ?_, ⟨[kPw ++ [0x3D] ++ pw], ssid, [], rfl, formEncodes_self hssid, ?_⟩,
    ⟨[], pw, [kSsid ++ [0x3D] ++ ssid], rfl, formEncodes_self hpw, ?_⟩⟩
  · intro f hf
    rcases List.mem_pair.mp hf with rfl | rfl
    · simpa [kPw] using ⟨by decide, by decide, by decide, hpwFree⟩
    · simpa [kSsid] using ⟨by decide, by decide, by decide, by decide, hssidFree⟩
  · intro f hf
    rw [List.append_nil, List.mem_singleton] at hf
    simp [hf, kPw, kSsid]
  · intro f hf
    rw [List.nil_append, List.mem_singleton] at hf
    simp [hf, kPw, kSsid]

/-- The network `a` with the password `b`. -/
theorem configured_as_typed_short :
    (formField (plainForm [0x61] [0x62]) kSsid = [0x61] ∧
      formField (plainForm [0x61] [0x62]) kPw = [0x62] ∧
        ∃ cfg, configured {} Wifi.System.codeOk (formRequest (plainForm [0x61] [0x62])) = some cfg ∧
          cfg.ssid = [0x61] ∧ cfg.password = [0x62]) ↔ 1 ≤ 31 ∧ 1 ≤ 63 :=
  configured_as_typed_iff rfl (Or.inr rfl) (delivers_formRequest (by decide)) (by decide)
    (carries_plainForm (by simp [kAmpersand]) (by simp [kAmpersand])) (by decide) (by decide)
    (by decide)

/-- A name of 32 bytes, which an access point can have. -/
def longestSsid : List UInt8 :=
  List.replicate 32 0x61

/-- A key of 64 digits, which WPA2 takes for a password. -/
def longestPw : List UInt8 :=
  List.replicate 64 0x62

/-- The station gets one byte less of each. -/
theorem longest_not_configured :
    configured {} Wifi.System.codeOk (formRequest (plainForm longestSsid longestPw)) =
        some (staConfig longestSsid longestPw) ∧
      (staConfig longestSsid longestPw).ssid ≠ longestSsid ∧
        (staConfig longestSsid longestPw).password ≠ longestPw := by
  have hplain : ∀ {n : ℕ} {c : UInt8}, c ≠ 0x2B ∧ c ≠ 0x25 ∧ c ≠ kAmpersand →
      ∀ b ∈ List.replicate n c, b ≠ 0x2B ∧ b ≠ 0x25 ∧ b ≠ kAmpersand := by
    intro n c hc b hb
    rw [List.eq_of_mem_replicate hb]
    exact hc
  have hcarries : CarriesCredentials (plainForm longestSsid longestPw) longestSsid longestPw :=
    carries_plainForm (hplain (by decide)) (hplain (by decide))
  refine ⟨?_, by decide, by decide⟩
  exact (configured_of_carries rfl (Or.inr rfl) (delivers_formRequest (by decide)) (by decide)
    hcarries (by decide)).2.2

end ProvisioningServer

end BtClock
