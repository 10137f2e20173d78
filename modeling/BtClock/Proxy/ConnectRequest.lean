import BtClock.Proxy.Handshake

/-!
# The request of HTTP CONNECT

The request line and the `Host` header are formatted into a buffer of 512 bytes, and as many bytes
are copied from there as `snprintf` returns: the length of the whole text, which the buffer holds
for a short host only.
-/

namespace BtClock

namespace Proxy

/-! ### Formatting into a buffer -/

/-- What `%.*s` prints: nothing from the first zero on. -/
def precisionString (precision : ℕ) (s : List UInt8) : List UInt8 :=
  (s.take precision).takeWhile (· ≠ 0)

/-- What `snprintf` leaves in the memory from the buffer on, how many characters of it are text,
and what it returns. -/
structure Formatted where
  memory : ℕ → UInt8
  written : ℕ
  returned : ℕ

def formatInto (memory : ℕ → UInt8) (size : ℕ) (text : List UInt8) : Formatted where
  memory i :=
    if i < min text.length (size - 1) then text.getD i 0
    else if i = min text.length (size - 1) ∧ 0 < size then 0
    else memory i
  written := min text.length (size - 1)
  returned := text.length

section

variable {memory : ℕ → UInt8} {size : ℕ} {text : List UInt8}

theorem memory_formatInto_of_lt {i : ℕ} (hi : i < (formatInto memory size text).written) :
    (formatInto memory size text).memory i = text.getD i 0 :=
  if_pos hi

/-- Behind the buffer the memory is as it was. -/
theorem memory_formatInto_of_le {i : ℕ} (hi : size ≤ i) :
    (formatInto memory size text).memory i = memory i := by
  have hbehind : ¬i < min text.length (size - 1) := by omega
  have hnul : ¬(i = min text.length (size - 1) ∧ 0 < size) := by omega
  exact (if_neg hbehind).trans (if_neg hnul)

/-- The text is all that is written iff there is room for a zero behind it. -/
theorem returned_le_written_iff (hsize : 0 < size) :
    (formatInto memory size text).returned ≤ (formatInto memory size text).written ↔
      text.length < size := by
  simp only [formatInto]
  omega

theorem map_memory_formatInto (hfit : text.length < size) :
    (List.range text.length).map (formatInto memory size text).memory = text := by
  apply List.ext_getElem
  · rw [List.length_map, List.length_range]
  · intro i _ hi
    have hwritten : i < (formatInto memory size text).written := by
      simp only [formatInto]
      omega
    rw [List.getElem_map, List.getElem_range, memory_formatInto_of_lt hwritten,
      List.getD_eq_getElem text 0 hi]

theorem precisionString_isPrefix (precision : ℕ) (s : List UInt8) :
    precisionString precision s <+: s := by
  have hfront : precisionString precision s <+: s.take precision := List.takeWhile_prefix _
  have hall : s.take precision <+: s := List.take_prefix precision s
  exact hfront.trans hall

theorem zero_notMem_precisionString (precision : ℕ) (s : List UInt8) :
    0 ∉ precisionString precision s := by
  intro hmem
  have hne := List.mem_takeWhile_imp hmem
  exact absurd rfl (of_decide_eq_true hne)

theorem precisionString_of_zero_notMem {precision : ℕ} {s : List UInt8} (hzero : 0 ∉ s)
    (hle : s.length ≤ precision) : precisionString precision s = s := by
  rw [precisionString, List.take_of_length_le hle, List.takeWhile_eq_self_iff]
  intro b hb
  exact decide_eq_true fun h => hzero (h ▸ hb)

end

/-! ### The request -/

def kLineSize : ℕ := 512

/-- The text of the request line and of the `Host` header. -/
def requestLine (host : List UInt8) (port : UInt16) : List UInt8 :=
  let hostPort := precisionString (min host.length 256) host ++ ascii ":" ++
    ascii (toString port.toNat)
  ascii "CONNECT " ++ hostPort ++ ascii " HTTP/1.1\r\nHost: " ++ hostPort ++ ascii "\r\n"

/-- `line`, where the memory from the buffer on held `memory`. -/
def formattedLine (memory : ℕ → UInt8) (host : List UInt8) (port : UInt16) : Formatted :=
  formatInto memory kLineSize (requestLine host port)

/-- `BuildHttpConnectRequest` with its copy out of the buffer. -/
def buildHttpConnectRequestIn (memory : ℕ → UInt8) (host : List UInt8) (port : UInt16)
    (basicAuthB64 : List UInt8) : List UInt8 :=
  let line := formattedLine memory host port
  if line.returned = 0 then []
  else
    (List.range line.returned).map line.memory ++
      (if basicAuthB64 = [] then []
        else ascii "Proxy-Authorization: Basic " ++ basicAuthB64 ++ [kCr, kLf]) ++
      [kCr, kLf]

def httpConnectRequestIn (memory : ℕ → UInt8) (cfg : Config) (destHost : List UInt8)
    (destPort : UInt16) : List UInt8 :=
  let authB64 := if cfg.user = [] then [] else base64Encode (cfg.user ++ ascii ":" ++ cfg.pass)
  buildHttpConnectRequestIn memory destHost destPort authB64

/-! ### What is asked for -/

def Config.credentials (cfg : Config) : Option (List UInt8 × List UInt8) :=
  if cfg.user = [] then none else some (cfg.user, cfg.pass)

def authorizationHeader : Option (List UInt8 × List UInt8) → List UInt8
  | none => []
  | some (user, pass) =>
      ascii "Proxy-Authorization: Basic " ++ base64Encode (user ++ ascii ":" ++ pass) ++
        ascii "\r\n"

/-- The request for a host and a port, and an empty line behind its headers. -/
def connectRequest (host : List UInt8) (port : UInt16)
    (credentials : Option (List UInt8 × List UInt8)) : List UInt8 :=
  let authority := host ++ ascii ":" ++ ascii (toString port.toNat)
  ascii "CONNECT " ++ authority ++ ascii " HTTP/1.1\r\n" ++
    (ascii "Host: " ++ authority ++ ascii "\r\n") ++ authorizationHeader credentials ++
    ascii "\r\n"

/-- The request is the one which is asked for, and is copied from what was written. -/
structure EmitsConnect (memory : ℕ → UInt8) (cfg : Config) (host : List UInt8) (port : UInt16) :
    Prop where
  request : httpConnectRequestIn memory cfg host port = connectRequest host port cfg.credentials
  reads_written : (formattedLine memory host port).returned ≤
    (formattedLine memory host port).written

variable {memory : ℕ → UInt8} {cfg : Config} {host : List UInt8} {port : UInt16}

/-! ### The length of the line -/

theorem length_ascii (s : String) : (ascii s).length = s.length := by
  rw [ascii, List.length_map, String.length_toList]

theorem length_requestLine (host : List UInt8) (port : UInt16) :
    (requestLine host port).length =
      29 + 2 * (precisionString (min host.length 256) host).length +
        2 * (toString port.toNat).length := by
  have hconnect : "CONNECT ".length = 8 := rfl
  have hversion : " HTTP/1.1\r\nHost: ".length = 17 := rfl
  have hcolon : ":".length = 1 := rfl
  have hend : "\r\n".length = 2 := rfl
  simp only [requestLine, List.length_append, length_ascii, hconnect, hversion, hcolon, hend]
  omega

theorem returned_ne_zero : (formattedLine memory host port).returned ≠ 0 := by
  have hlength := length_requestLine host port
  simp only [formattedLine, formatInto]
  omega

/-- Nothing but the line is copied iff the line and a zero fit the buffer. -/
theorem reads_written_iff :
    (formattedLine memory host port).returned ≤ (formattedLine memory host port).written ↔
      (requestLine host port).length < kLineSize :=
  returned_le_written_iff (by decide)

/-- What is copied from behind the buffer is the memory of whoever is there. -/
theorem getElem?_buildHttpConnectRequestIn {basicAuthB64 : List UInt8} {i : ℕ}
    (hbehind : kLineSize ≤ i) (hi : i < (requestLine host port).length) :
    (buildHttpConnectRequestIn memory host port basicAuthB64)[i]? = some (memory i) := by
  have hcopied : i < ((List.range (formattedLine memory host port).returned).map
      (formattedLine memory host port).memory).length := by
    rw [List.length_map, List.length_range]
    exact hi
  rw [buildHttpConnectRequestIn, if_neg returned_ne_zero, List.append_assoc,
    List.getElem?_append_left hcopied, List.getElem?_eq_getElem hcopied, List.getElem_map,
    List.getElem_range]
  exact congrArg some (memory_formatInto_of_le hbehind)

/-! ### A line which fits -/

theorem base64Encode_credentials_ne_nil (user pass : List UInt8) :
    base64Encode (user ++ ascii ":" ++ pass) ≠ [] := by
  have hcolon : ":".length = 1 := rfl
  intro hnil
  have hlength := congrArg List.length hnil
  rw [base64Encode, List.length_map, Base64.length_encode, List.length_append,
    List.length_append, length_ascii, hcolon, List.length_nil] at hlength
  omega

theorem httpConnectRequestIn_of_fits (hfit : (requestLine host port).length < kLineSize) :
    httpConnectRequestIn memory cfg host port =
      requestLine host port ++ authorizationHeader cfg.credentials ++ ascii "\r\n" := by
  have hcopy : (List.range (formattedLine memory host port).returned).map
      (formattedLine memory host port).memory = requestLine host port :=
    map_memory_formatInto hfit
  have hend : ascii "\r\n" = [kCr, kLf] := by decide
  rw [httpConnectRequestIn, buildHttpConnectRequestIn, if_neg returned_ne_zero, hcopy,
    Config.credentials, hend]
  by_cases huser : cfg.user = []
  · rw [if_pos huser, if_pos huser, if_pos rfl]
    rfl
  · rw [if_neg huser, if_neg huser, if_neg (base64Encode_credentials_ne_nil cfg.user cfg.pass),
      authorizationHeader, hend]

theorem length_connectRequest (credentials : Option (List UInt8 × List UInt8)) :
    (connectRequest host port credentials).length =
      29 + 2 * host.length + 2 * (toString port.toNat).length +
        (authorizationHeader credentials).length + 2 := by
  have hconnect : "CONNECT ".length = 8 := rfl
  have hversion : " HTTP/1.1\r\n".length = 11 := rfl
  have hhost : "Host: ".length = 6 := rfl
  have hcolon : ":".length = 1 := rfl
  have hend : "\r\n".length = 2 := rfl
  simp only [connectRequest, List.length_append, length_ascii, hconnect, hversion, hhost, hcolon,
    hend]
  omega

/-- With the whole host the line begins the request. -/
theorem requestLine_append (hhost : precisionString (min host.length 256) host = host)
    (credentials : Option (List UInt8 × List UInt8)) :
    requestLine host port ++ authorizationHeader credentials ++ ascii "\r\n" =
      connectRequest host port credentials := by
  have hsplit : ascii " HTTP/1.1\r\nHost: " = ascii " HTTP/1.1\r\n" ++ ascii "Host: " := by
    decide
  simp only [requestLine, connectRequest, hhost, hsplit, List.append_assoc]

/-- The host stands twice in the line: the request is right, and only what was written is read,
exactly for a host which leaves room for the zero, with its port, in its half of the buffer. -/
theorem emitsConnect_iff (memory : ℕ → UInt8) (cfg : Config) (host : List UInt8) (port : UInt16) :
    EmitsConnect memory cfg host port ↔
      0 ∉ host ∧ host.length + (toString port.toNat).length ≤ 241 := by
  have hlength := length_requestLine host port
  constructor
  · rintro ⟨hrequest, hreads⟩
    have hfit : (requestLine host port).length < 512 := reads_written_iff.mp hreads
    rw [httpConnectRequestIn_of_fits hfit] at hrequest
    have hlengths := congrArg List.length hrequest
    have hend : "\r\n".length = 2 := rfl
    rw [List.length_append, List.length_append, length_ascii, hend, length_connectRequest,
      hlength] at hlengths
    -- Both texts are as long as each other only if no character of the host is lost.
    have hwhole : precisionString (min host.length 256) host = host :=
      (precisionString_isPrefix _ host).eq_of_length (by omega)
    rw [hwhole] at hlength
    refine ⟨?_, by omega⟩
    rw [← hwhole]
    exact zero_notMem_precisionString _ host
  · rintro ⟨hzero, hle⟩
    have hwhole : precisionString (min host.length 256) host = host :=
      precisionString_of_zero_notMem hzero (by omega)
    rw [hwhole] at hlength
    have hfit : (requestLine host port).length < 512 := by omega
    refine ⟨?_, reads_written_iff.mpr hfit⟩
    rw [httpConnectRequestIn_of_fits hfit, requestLine_append hwhole]

/-- A name of 239 letters, which DNS allows. -/
theorem not_emitsConnect_long :
    ¬EmitsConnect (fun _ => 0) httpProxy (List.replicate 239 0x61) 443 := by
  rintro ⟨-, hreads⟩
  have hzero : (0 : UInt8) ∉ List.replicate 239 0x61 := fun hmem =>
    absurd (List.eq_of_mem_replicate hmem) (by decide)
  have hfit : (requestLine (List.replicate 239 0x61) 443).length < 512 :=
    reads_written_iff.mp hreads
  have hport : (toString (443 : UInt16).toNat).length = 3 := by decide
  have hhost : (List.replicate 239 (0x61 : UInt8)).length = 239 := List.length_replicate
  rw [length_requestLine, precisionString_of_zero_notMem hzero (by omega), hhost, hport] at hfit
  omega

/-- Where the line fits, the bytes are those of the request as it is meant. -/
theorem httpConnectRequestIn_eq (hzero : 0 ∉ host)
    (hle : host.length + (toString port.toNat).length ≤ 241) :
    httpConnectRequestIn memory cfg host port = httpConnectRequest cfg host port := by
  have hlength := length_requestLine host port
  have hwhole : precisionString (min host.length 256) host = host :=
    precisionString_of_zero_notMem hzero (by omega)
  rw [hwhole] at hlength
  have hfit : (requestLine host port).length < 512 := by omega
  have hcopy : (List.range (formattedLine memory host port).returned).map
      (formattedLine memory host port).memory = requestLine host port :=
    map_memory_formatInto hfit
  rw [httpConnectRequestIn, buildHttpConnectRequestIn, if_neg returned_ne_zero, hcopy,
    httpConnectRequest, buildHttpConnectRequest, requestLine, hwhole,
    List.take_of_length_le (show host.length ≤ 256 by omega)]

end Proxy

end BtClock
