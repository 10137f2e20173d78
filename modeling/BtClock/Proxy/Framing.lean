import Mathlib.Data.Int.Notation
import BtClock.Proxy.SocketIo
import BtClock.Webserver.BasicAuth

/-!
# The messages of the proxy protocols

What is sent to a proxy, and how its replies are read: SOCKS5, SOCKS4a and HTTP CONNECT.
-/

namespace BtClock

namespace Proxy

open Reading

def ascii (s : String) : List UInt8 :=
  s.toList.map fun c => UInt8.ofNat c.toNat

/-- The high byte of a port, then the low one. -/
def portBytes (port : UInt16) : List UInt8 :=
  [(port >>> 8).toUInt8, port.toUInt8]

/-- A field of at most 255 bytes behind its length. -/
def sized (bytes : List UInt8) : List UInt8 :=
  UInt8.ofNat (min bytes.length 255) :: bytes.take (min bytes.length 255)

/-! ### SOCKS5 -/

def kUserPass : UInt8 := 0x02

def kRejected : UInt8 := 0xFF

def buildSocks5Greeting (offerUserPass : Bool) : List UInt8 :=
  if offerUserPass then [0x05, 0x02, 0x00, 0x02] else [0x05, 0x01, 0x00]

def parseSocks5GreetingReply (buf : List UInt8) : Option UInt8 :=
  if buf.length < 2 ∨ buf.getD 0 0 ≠ 0x05 then none else some (buf.getD 1 0)

def buildSocks5UserPass (user pass : List UInt8) : List UInt8 :=
  0x01 :: sized user ++ sized pass

def parseSocks5UserPassReply (buf : List UInt8) : Bool :=
  2 ≤ buf.length && buf.getD 0 0 == 0x01 && buf.getD 1 0 == 0x00

def buildSocks5Connect (host : List UInt8) (port : UInt16) : List UInt8 :=
  [0x05, 0x01, 0x00, 0x03] ++ sized host ++ portBytes port

/-- The length of the address in a reply, the byte with the length of a name included; or the
status where it is not known. -/
def replyAddrLen (buf : List UInt8) : Except ℤ ℕ :=
  if buf.getD 3 0 = 0x01 then .ok 4
  else if buf.getD 3 0 = 0x03 then
    if buf.length < 5 then .error (-1) else .ok (1 + (buf.getD 4 0).toNat)
  else if buf.getD 3 0 = 0x04 then .ok 16
  else .error (-2)

/-- The status in the reply and its length; or -1 where more is needed and -2 for no reply. -/
def parseSocks5ConnectReply (buf : List UInt8) : ℤ × ℕ :=
  if buf.length < 4 then (-1, 0)
  else if buf.getD 0 0 ≠ 0x05 then (-2, 0)
  else
    match replyAddrLen buf with
    | .error status => (status, 0)
    | .ok addrLen =>
        let total := 4 + addrLen + 2
        if buf.length < total then (-1, 0) else ((buf.getD 1 0).toNat, total)

/-! ### SOCKS4a -/

def buildSocks4aRequest (host : List UInt8) (port : UInt16) (userId : List UInt8) : List UInt8 :=
  [0x04, 0x01] ++ portBytes port ++ [0x00, 0x00, 0x00, 0x01] ++ userId.take 255 ++ [0x00] ++ host ++
    [0x00]

def parseSocks4Reply (buf : List UInt8) : ℤ :=
  if buf.length < 8 ∨ buf.getD 0 0 ≠ 0x00 then -1 else (buf.getD 1 0).toNat

/-! ### HTTP CONNECT -/

def kCr : UInt8 := 0x0D

def kLf : UInt8 := 0x0A

def kSpace : UInt8 := 0x20

/-- The request.  For a request line of 512 bytes or more the source reads behind its buffer; the
line is given here as it is meant. -/
def buildHttpConnectRequest (host : List UInt8) (port : UInt16) (basicAuthB64 : List UInt8) :
    List UInt8 :=
  let hostPort := host.take 256 ++ ascii ":" ++ ascii (toString port.toNat)
  ascii "CONNECT " ++ hostPort ++ ascii " HTTP/1.1\r\nHost: " ++ hostPort ++ ascii "\r\n" ++
    (if basicAuthB64 = [] then []
      else ascii "Proxy-Authorization: Basic " ++ basicAuthB64 ++ [kCr, kLf]) ++
    [kCr, kLf]

def base64Encode (bytes : List UInt8) : List UInt8 :=
  (Auth.standard.encode bytes).map fun c => UInt8.ofNat c.toNat

def isDigit (b : UInt8) : Bool :=
  0x30 ≤ b && b ≤ 0x39

/-- The offset behind the first empty line. -/
def headersEnd : List UInt8 → Option ℕ
  | [] => none
  | b :: bs =>
      if (b :: bs).take 4 = [kCr, kLf, kCr, kLf] then some 4 else (headersEnd bs).map (· + 1)

/-- The status, -1 where more is needed or -2 for a status line which is none; and the bytes up
to the payload. -/
def parseHttpConnectStatus (buf : List UInt8) : ℤ × ℕ :=
  if buf.length < 14 then (-1, 0)
  else if buf.take 7 ≠ ascii "HTTP/1." then (-2, 0)
  else
    let i := 8 + ((buf.drop 8).takeWhile (· = kSpace)).length
    if buf.length < i + 3 then (-1, 0)
    else
      let digits := (buf.drop i).take 3
      if digits.all isDigit then
        let status : ℕ := digits.foldl (fun n b => n * 10 + (b.toNat - 0x30)) 0
        match headersEnd (buf.drop (i + 3)) with
        | some n => (status, i + 3 + n)
        | none => (-1, 0)
      else (-2, 0)

/-! ### The end of the headers -/

theorem headersEnd_of_some {bs : List UInt8} {n : ℕ} (h : headersEnd bs = some n)
    (more : List UInt8) : 4 ≤ n ∧ n ≤ bs.length ∧ headersEnd (bs ++ more) = some n := by
  induction bs generalizing n with
  | nil => cases h
  | cons b bs ih =>
      rw [headersEnd] at h
      rw [List.cons_append, headersEnd, List.length_cons]
      split_ifs at h with hend
      · cases h
        have hlength := congrArg List.length hend
        rw [List.length_take] at hlength
        simp only [List.length_cons, List.length_nil] at hlength
        have hfour : 4 ≤ (b :: bs).length := by rw [List.length_cons]; omega
        refine ⟨le_refl 4, hfour, ?_⟩
        rw [← List.cons_append, List.take_append_of_le_length hfour, if_pos hend]
      · obtain ⟨m, hm, rfl⟩ := Option.map_eq_some_iff.mp h
        obtain ⟨hfour, hle, hmore⟩ := ih hm
        refine ⟨by omega, Nat.succ_le_succ hle, ?_⟩
        rw [← List.cons_append,
          List.take_append_of_le_length (show 4 ≤ (b :: bs).length by rw [List.length_cons]; omega),
          if_neg hend, hmore]
        rfl

/-- A line is passed over. -/
theorem headersEnd_line_append {line : List UInt8} (hline : kCr ∉ line) (rest : List UInt8) :
    headersEnd (line ++ rest) = (headersEnd rest).map (· + line.length) := by
  induction line with
  | nil => simp
  | cons b line ih =>
      rw [List.mem_cons, not_or] at hline
      have hend : (b :: (line ++ rest)).take 4 ≠ [kCr, kLf, kCr, kLf] := fun h =>
        hline.1 (List.cons.inj h).1.symm
      rw [List.cons_append, headersEnd, if_neg hend, ih hline.2, Option.map_map]
      simp only [Function.comp_def, List.length_cons, Nat.add_assoc]

/-- What is behind the status line: header lines, and an empty line at the end. -/
def headerBlock : List (List UInt8) → List UInt8
  | [] => [kCr, kLf, kCr, kLf]
  | line :: lines => kCr :: kLf :: (line ++ headerBlock lines)

theorem headersEnd_headerBlock {lines : List (List UInt8)}
    (hlines : ∀ line ∈ lines, line ≠ [] ∧ kCr ∉ line) :
    headersEnd (headerBlock lines) = some (headerBlock lines).length := by
  induction lines with
  | nil => rfl
  | cons line lines ih =>
      obtain ⟨hne, hcr⟩ := hlines line List.mem_cons_self
      obtain ⟨b, line, rfl⟩ := List.exists_cons_of_ne_nil hne
      have hb : b ≠ kCr := fun h => hcr (h ▸ List.mem_cons_self)
      have hend : (kCr :: kLf :: (b :: line ++ headerBlock lines)).take 4 ≠
          [kCr, kLf, kCr, kLf] := by
        simp [hb]
      have hend' : (kLf :: (b :: line ++ headerBlock lines)).take 4 ≠ [kCr, kLf, kCr, kLf] :=
        fun h => absurd (List.cons.inj h).1 (by decide)
      rw [headerBlock, headersEnd, if_neg hend, headersEnd, if_neg hend',
        headersEnd_line_append hcr, ih fun l hl => hlines l (List.mem_cons_of_mem _ hl)]
      simp only [Option.map_some, List.length_cons, List.length_append, Option.some.injEq]
      omega

/-- An answer to CONNECT which lets the request through. -/
structure HttpReply where
  minor : UInt8
  d₁ : UInt8
  d₂ : UInt8
  d₃ : UInt8
  reason : List UInt8
  headers : List (List UInt8)
  /-- The status is one of success. -/
  hd₁ : d₁ = 0x32
  hd₂ : isDigit d₂ = true
  hd₃ : isDigit d₃ = true
  hreason : kCr ∉ reason
  hheaders : ∀ line ∈ headers, line ≠ [] ∧ kCr ∉ line

def HttpReply.bytes (r : HttpReply) : List UInt8 :=
  ascii "HTTP/1." ++ [r.minor, kSpace, r.d₁, r.d₂, r.d₃] ++ r.reason ++ headerBlock r.headers

def HttpReply.status (r : HttpReply) : ℕ :=
  200 + (r.d₂.toNat - 0x30) * 10 + (r.d₃.toNat - 0x30)

theorem ascii_http : ascii "HTTP/1." = [0x48, 0x54, 0x54, 0x50, 0x2F, 0x31, 0x2E] := by
  decide

/-- Behind a status line of success only the end of the headers is searched. -/
theorem parseHttpConnectStatus_append (r : HttpReply) (tail : List UInt8)
    (htail : 2 ≤ tail.length) :
    parseHttpConnectStatus (ascii "HTTP/1." ++ [r.minor, kSpace, r.d₁, r.d₂, r.d₃] ++ tail) =
      match headersEnd tail with
      | some n => ((r.status : ℤ), 12 + n)
      | none => (-1, 0) := by
  have hlength : ¬tail.length + 12 < 14 := by omega
  have hspace : ¬(0x32 : UInt8) = kSpace := by decide
  have hdigit : isDigit 0x32 = true := by decide
  have hvalue : (0x32 : UInt8).toNat - 0x30 = 2 := by decide
  have hskip : (kSpace :: 0x32 :: r.d₂ :: r.d₃ :: tail).takeWhile (· = kSpace) = [kSpace] := by
    simp [hspace]
  rw [ascii_http, parseHttpConnectStatus, ascii_http, r.hd₁]
  simp only [List.cons_append, List.nil_append, List.length_cons, List.take_succ_cons,
    List.take_zero, List.drop_succ_cons, List.drop_zero, hskip, List.length_nil]
  rw [if_neg hlength, if_neg (fun h => h rfl), if_neg (by omega)]
  simp only [List.all_cons, List.all_nil, hdigit, r.hd₂, r.hd₃, List.foldl_cons, List.foldl_nil,
    hvalue, Bool.and_true, if_true]
  have hstatus : ((0 * 10 + 2) * 10 + (r.d₂.toNat - 48)) * 10 + (r.d₃.toNat - 48) = r.status := by
    rw [HttpReply.status]
    omega
  rw [hstatus]

def HttpReply.tail (r : HttpReply) : List UInt8 :=
  r.reason ++ headerBlock r.headers

theorem four_le_length_headerBlock (lines : List (List UInt8)) :
    4 ≤ (headerBlock lines).length := by
  induction lines with
  | nil => exact le_refl 4
  | cons line lines ih =>
      rw [headerBlock, List.length_cons, List.length_cons, List.length_append]
      omega

theorem headersEnd_tail (r : HttpReply) : headersEnd r.tail = some r.tail.length := by
  rw [HttpReply.tail, headersEnd_line_append r.hreason, headersEnd_headerBlock r.hheaders,
    Option.map_some, List.length_append, Nat.add_comm]

/-- The parser asks for more until it has the reply, and takes nothing behind it. -/
theorem parsesReply (r : HttpReply) :
    ParsesReply parseHttpConnectStatus r.bytes r.status := by
  have hlong : 4 ≤ r.tail.length := by
    rw [HttpReply.tail, List.length_append]
    exact Nat.le_add_left_of_le (four_le_length_headerBlock r.headers)
  have hbytes : ∀ more, r.bytes ++ more =
      ascii "HTTP/1." ++ [r.minor, kSpace, r.d₁, r.d₂, r.d₃] ++ (r.tail ++ more) := fun more => by
    simp only [HttpReply.bytes, HttpReply.tail, List.append_assoc]
  have hfront : (ascii "HTTP/1." ++ [r.minor, kSpace, r.d₁, r.d₂, r.d₃]).length = 12 := by
    rw [ascii_http]
    rfl
  refine ⟨?_, ?_, by omega⟩
  · intro front back hreply hback
    by_cases hshort : front.length < 14
    · rw [parseHttpConnectStatus, if_pos hshort]
    have hsplit : ascii "HTTP/1." ++ [r.minor, kSpace, r.d₁, r.d₂, r.d₃] ++ r.tail =
        front ++ back := by
      rw [← hreply, ← List.append_nil r.bytes, hbytes, List.append_nil]
    obtain ⟨part, rfl, htail⟩ := exists_eq_append_of_length_le hsplit (by rw [hfront]; omega)
    rw [List.length_append, hfront] at hshort
    rw [parseHttpConnectStatus_append r part (by omega)]
    cases hend : headersEnd part with
    | none => rfl
    | some n =>
        obtain ⟨-, hle, hmore⟩ := headersEnd_of_some hend back
        rw [← htail, headersEnd_tail, htail, Option.some.injEq, List.length_append] at hmore
        have hpos := List.length_pos_iff.mpr hback
        omega
  · intro back
    rw [hbytes, parseHttpConnectStatus_append r _ (by rw [List.length_append]; omega),
      (headersEnd_of_some (headersEnd_tail r) back).2.2]
    have hlength : r.bytes.length = 12 + r.tail.length := by
      rw [← List.append_nil r.bytes, hbytes, List.append_nil, List.length_append, hfront]
    rw [hlength]

end Proxy

end BtClock
