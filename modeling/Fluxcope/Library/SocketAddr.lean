import Fluxcope.Library.Digits
/-!
# Socket addresses

The texts of socket addresses as the standard library writes and reads them.
Reading the text of an address gives the address back.
-/

namespace Fluxcope.Library.Net

open Utf8

def dot : UInt8 := 0x2E

def colon : UInt8 := 0x3A

def percent : UInt8 := 0x25

def openBracket : UInt8 := 0x5B

def closeBracket : UInt8 := 0x5D

structure Ipv4Addr where
  a : UInt8
  b : UInt8
  c : UInt8
  d : UInt8
  deriving DecidableEq, Repr

structure Ipv6Addr where
  segments : List UInt16
  eight : segments.length = 8
  deriving DecidableEq, Repr

/-- Flow information has no place in the text, and is zero in every address that was read. -/
inductive SocketAddr
  | v4 (ip : Ipv4Addr) (port : UInt16)
  | v6 (ip : Ipv6Addr) (port : UInt16) (scopeId : UInt32)
  deriving DecidableEq, Repr

/-! ## Writing -/

def Ipv4Addr.toText (ip : Ipv4Addr) : Bytes :=
  decimal ip.a.toNat ++ dot :: (decimal ip.b.toNat ++ dot :: (decimal ip.c.toNat ++
    dot :: decimal ip.d.toNat))

/-- The upper and the lower byte of a segment. -/
def octets (segment : UInt16) : UInt8 × UInt8 := ((segment >>> 8).toUInt8, segment.toUInt8)

def fromOctets (high low : UInt8) : UInt16 := high.toUInt16 <<< 8 ||| low.toUInt16

def mappedPrefix : List UInt16 := [0, 0, 0, 0, 0, 0xFFFF]

def toIpv4Mapped (segments : List UInt16) : Option Ipv4Addr :=
  if segments.take 6 = mappedPrefix then
    match segments.drop 6 with
    | [high, low] =>
      some ⟨(octets high).1, (octets high).2, (octets low).1, (octets low).2⟩
    | _ => none
  else none

structure Span where
  start : Nat := 0
  len : Nat := 0
  deriving DecidableEq, Repr

/-- The first of the longest runs of zeros, over the segments from `i` on. -/
def longestZeros : Nat → Span → Span → List UInt16 → Span
  | _, _, longest, [] => longest
  | i, current, longest, segment :: segments =>
    if segment = 0 then
      let current : Span :=
        { start := if current.len = 0 then i else current.start, len := current.len + 1 }
      longestZeros (i + 1) current (if current.len > longest.len then current else longest) segments
    else longestZeros (i + 1) {} longest segments

def moreGroups (segments : List UInt16) : Bytes :=
  segments.flatMap fun segment => colon :: hexadecimal segment.toNat

def fmtSubslice : List UInt16 → Bytes
  | [] => []
  | first :: segments => hexadecimal first.toNat ++ moreGroups segments

def Ipv6Addr.toText (ip : Ipv6Addr) : Bytes :=
  match toIpv4Mapped ip.segments with
  | some ipv4 => colon :: colon :: (hexadecimal 0xFFFF ++ colon :: ipv4.toText)
  | none =>
    let zeroes := longestZeros 0 {} {} ip.segments
    if zeroes.len > 1 then
      fmtSubslice (ip.segments.take zeroes.start) ++
        colon :: colon :: fmtSubslice (ip.segments.drop (zeroes.start + zeroes.len))
    else fmtSubslice ip.segments

def scopeText (scopeId : UInt32) : Bytes :=
  if scopeId = 0 then [] else percent :: decimal scopeId.toNat

def SocketAddr.toText : SocketAddr → Bytes
  | .v4 ip port => ip.toText ++ colon :: decimal port.toNat
  | .v6 ip port scopeId =>
    openBracket :: (ip.toText ++ (scopeText scopeId ++
      closeBracket :: colon :: decimal port.toNat))

/-! ## Reading -/

def readGivenChar (target : UInt8) : Bytes → Option Bytes
  | [] => none
  | byte :: rest => if byte = target then some rest else none

/-- The loop over the digits: the number, how many there were, and what is left. -/
def readDigits (radix : Nat) (maxDigits : Option Nat) (limit : Nat) :
    Nat → Nat → Bytes → Option (Nat × Nat × Bytes)
  | result, count, [] => some (result, count, [])
  | result, count, byte :: rest =>
    match toDigit radix byte with
    | none => some (result, count, byte :: rest)
    | some digit =>
      match maxDigits with
      | some most =>
        if count + 1 > most then none
        else readDigits radix maxDigits limit (result * radix + digit) (count + 1) rest
      | none =>
        if result * radix + digit < limit then
          readDigits radix maxDigits limit (result * radix + digit) (count + 1) rest
        else none

/-- A number below `limit`, the first one that its type does not hold. -/
def readNumber (radix : Nat) (maxDigits : Option Nat) (allowZeroPrefix : Bool) (limit : Nat)
    (input : Bytes) : Option (Nat × Bytes) :=
  match readDigits radix maxDigits limit 0 0 input with
  | none => none
  | some (result, count, rest) =>
    if count = 0 then none
    else if !allowZeroPrefix && input.head? = some 0x30 && count > 1 then none
    else if result < limit then some (result, rest)
    else none

def readSeparator {α : Type} (separator : UInt8) (index : Nat) (inner : Bytes → Option (α × Bytes))
    (input : Bytes) : Option (α × Bytes) :=
  if index > 0 then (readGivenChar separator input).bind inner else inner input

def readOctet (index : Nat) (input : Bytes) : Option (UInt8 × Bytes) :=
  readSeparator dot index
    (fun input => (readNumber 10 (some 3) false 256 input).map fun (n, rest) =>
      (UInt8.ofNat n, rest)) input

def readIpv4Addr (input : Bytes) : Option (Ipv4Addr × Bytes) := do
  let (a, input) ← readOctet 0 input
  let (b, input) ← readOctet 1 input
  let (c, input) ← readOctet 2 input
  let (d, input) ← readOctet 3 input
  some (⟨a, b, c, d⟩, input)

def readGroup (index : Nat) (input : Bytes) : Option (UInt16 × Bytes) :=
  readSeparator colon index
    (fun input => (readNumber 16 (some 4) true 65536 input).map fun (n, rest) =>
      (UInt16.ofNat n, rest)) input

/-- The groups from `index` on where there is room for `room` more, whether an address of the
fourth version ends them, and what is left. -/
def readGroups : Nat → Nat → Bytes → List UInt16 × Bool × Bytes
  | 0, _, input => ([], false, input)
  | room + 1, index, input =>
    match if room > 0 then readSeparator colon index readIpv4Addr input else none with
    | some (ip, rest) => ([fromOctets ip.a ip.b, fromOctets ip.c ip.d], true, rest)
    | none =>
      match readGroup index input with
      | none => ([], false, input)
      | some (group, rest) =>
        let (groups, ipv4, rest) := readGroups room (index + 1) rest
        (group :: groups, ipv4, rest)

theorem length_readGroups_le (room index : Nat) (input : Bytes) :
    (readGroups room index input).1.length ≤ room := by
  induction room generalizing index input with
  | zero => exact Nat.le_refl 0
  | succ room ih =>
    rw [readGroups]
    split
    · rename_i hread
      by_cases hroom : room > 0
      · exact Nat.succ_le_succ hroom
      · rw [if_neg hroom] at hread
        cases hread
    · split
      · exact Nat.zero_le _
      · exact Nat.succ_le_succ (ih _ _)

/-- The groups on both sides of a double colon leave room for one group of zeros. -/
theorem length_groups_around (input rest : Bytes) :
    ((readGroups 8 0 input).1 ++
        List.replicate (8 - (readGroups 8 0 input).1.length -
          (readGroups (8 - ((readGroups 8 0 input).1.length + 1)) 0 rest).1.length) 0 ++
        (readGroups (8 - ((readGroups 8 0 input).1.length + 1)) 0 rest).1).length = 8 := by
  have htail := length_readGroups_le (8 - ((readGroups 8 0 input).1.length + 1)) 0 rest
  have hhead := length_readGroups_le 8 0 input
  rw [List.length_append, List.length_append, List.length_replicate]
  omega

def readIpv6Addr (input : Bytes) : Option (Ipv6Addr × Bytes) :=
  let head := readGroups 8 0 input
  if hhead : head.1.length = 8 then some (⟨head.1, hhead⟩, head.2.2)
  else if head.2.1 then none
  else
    match ((readGivenChar colon head.2.2).bind (readGivenChar colon)) with
    | none => none
    | some rest =>
      let limit := 8 - (head.1.length + 1)
      let tail := readGroups limit 0 rest
      let zeros := List.replicate (8 - head.1.length - tail.1.length) 0
      some (⟨head.1 ++ zeros ++ tail.1, length_groups_around input rest⟩, tail.2.2)

def readPort (input : Bytes) : Option (UInt16 × Bytes) :=
  ((readGivenChar colon input).bind (readNumber 10 none true 65536)).map fun (n, rest) =>
    (UInt16.ofNat n, rest)

def readScopeId (input : Bytes) : Option (UInt32 × Bytes) :=
  ((readGivenChar percent input).bind (readNumber 10 none true (2 ^ 32))).map fun (n, rest) =>
    (UInt32.ofNat n, rest)

def readSocketAddrV4 (input : Bytes) : Option (SocketAddr × Bytes) := do
  let (ip, input) ← readIpv4Addr input
  let (port, input) ← readPort input
  some (.v4 ip port, input)

def readSocketAddrV6 (input : Bytes) : Option (SocketAddr × Bytes) := do
  let input ← readGivenChar openBracket input
  let (ip, input) ← readIpv6Addr input
  let (scopeId, input) := (readScopeId input).getD (0, input)
  let input ← readGivenChar closeBracket input
  let (port, input) ← readPort input
  some (.v6 ip port scopeId, input)

/-- `str::parse::<SocketAddr>` -/
def SocketAddr.parse (text : Bytes) : Option SocketAddr :=
  match (readSocketAddrV4 text).or (readSocketAddrV6 text) with
  | some (address, []) => some address
  | _ => none

/-! ## Numbers -/

/-- No digit follows. -/
def StopsDigits (radix : Nat) (rest : Bytes) : Prop := ∀ byte ∈ rest.head?, toDigit radix byte = none

theorem StopsDigits.cons {radix : Nat} {byte : UInt8} (h : toDigit radix byte = none) (rest : Bytes) :
    StopsDigits radix (byte :: rest) := by
  intro b hb
  exact Option.some.inj hb ▸ h

theorem stopsDigits_nil (radix : Nat) : StopsDigits radix [] := fun _ hb => nomatch hb

section Numbers

variable {radix limit : Nat} {maxDigits : Option Nat}

theorem readDigits_digit (hradix : radix ≤ 16) {result count digit : Nat} (hdigit : digit < radix)
    (hmax : ∀ most, maxDigits = some most → count + 1 ≤ most)
    (hlimit : maxDigits = none → result * radix + digit < limit) (rest : Bytes) :
    readDigits radix maxDigits limit result count (digitByte digit :: rest) =
      readDigits radix maxDigits limit (result * radix + digit) (count + 1) rest := by
  rw [readDigits, toDigit_digitByte hradix hdigit]
  cases maxDigits with
  | none => exact if_pos (hlimit rfl)
  | some most => exact if_neg (Nat.not_lt.2 (hmax most rfl))

theorem readDigits_digits (hbase : 1 < radix) (hradix : radix ≤ 16) {n : Nat}
    (hmax : ∀ most, maxDigits = some most → (digits radix n).length ≤ most)
    (hlimit : maxDigits = none → n < limit) (rest : Bytes) :
    readDigits radix maxDigits limit 0 0 (digits radix n ++ rest) =
      readDigits radix maxDigits limit n (digits radix n).length rest := by
  revert rest hlimit hmax
  refine digits_induction hbase (motive := fun n text =>
    (∀ most, maxDigits = some most → text.length ≤ most) → (maxDigits = none → n < limit) →
      ∀ rest, readDigits radix maxDigits limit 0 0 (text ++ rest) =
        readDigits radix maxDigits limit n text.length rest) ?_ ?_ n
  · intro n hn hmax hlimit rest
    have hstep := @readDigits_digit radix limit maxDigits hradix 0 0 n hn hmax
      (by simpa using hlimit) rest
    rw [Nat.zero_mul, Nat.zero_add] at hstep
    exact hstep
  · intro n digit text hpos hdigit ih hmax hlimit rest
    rw [List.length_append, List.length_singleton] at hmax ⊢
    have hle : n ≤ n * radix + digit :=
      (Nat.le_mul_of_pos_right n (by omega)).trans (Nat.le_add_right _ _)
    rw [List.append_assoc, ih (fun most hmost => (Nat.le_succ _).trans (hmax most hmost))
      (fun hnone => hle.trans_lt (hlimit hnone)), List.singleton_append,
      readDigits_digit hradix hdigit hmax hlimit]

theorem readDigits_stop {rest : Bytes} (h : StopsDigits radix rest) (result count : Nat) :
    readDigits radix maxDigits limit result count rest = some (result, count, rest) := by
  cases rest with
  | nil => rfl
  | cons byte rest => rw [readDigits, h byte rfl]

/-- Everything that is a digit is read. -/
theorem readDigits_rest {input rest : Bytes} {result count value total : Nat}
    (h : readDigits radix maxDigits limit result count input = some (value, total, rest)) :
    rest = input.dropWhile fun byte => (toDigit radix byte).isSome := by
  induction input generalizing result count with
  | nil =>
    cases h
    rfl
  | cons byte input ih =>
    rw [readDigits] at h
    cases hdigit : toDigit radix byte with
    | none =>
      rw [hdigit] at h
      cases h
      rw [List.dropWhile_cons, hdigit]
      rfl
    | some digit =>
      rw [hdigit] at h
      rw [List.dropWhile_cons, hdigit]
      dsimp only at h
      split at h
      all_goals split at h
      all_goals first
        | exact ih h
        | cases h

theorem readNumber_digits (hbase : 1 < radix) (hradix : radix ≤ 16) {n : Nat}
    (hmax : ∀ most, maxDigits = some most → n < radix ^ most ∧ 0 < most) (hlimit : n < limit)
    {rest : Bytes} (hrest : StopsDigits radix rest) (allowZeroPrefix : Bool) :
    readNumber radix maxDigits allowZeroPrefix limit (digits radix n ++ rest) = some (n, rest) := by
  have hread := readDigits_digits hbase hradix
    (fun most hmost => (length_digits_le_iff hbase (hmax most hmost).2).2 (hmax most hmost).1)
    (fun _ => hlimit) rest
  have hne : digits radix n ≠ [] := digits_ne_nil
  have hzero : ((digits radix n ++ rest).head? = some 0x30 && (digits radix n).length > 1) =
      false := by
    rw [List.head?_append_of_ne_nil _ hne]
    by_contra hboth
    rw [Bool.not_eq_false, Bool.and_eq_true, decide_eq_true_eq, decide_eq_true_eq] at hboth
    obtain ⟨hhead, hlength⟩ := hboth
    rw [head?_digits hbase hradix hhead, digits_of_lt (by omega)] at hlength
    exact absurd hlength (Nat.lt_irrefl 1)
  unfold readNumber
  rw [hread, readDigits_stop hrest]
  dsimp only
  rw [if_neg (by simpa using hne), if_neg (by rw [Bool.and_assoc, hzero]; simp), if_pos hlimit]

theorem readNumber_stop {input : Bytes} (h : StopsDigits radix input) (allowZeroPrefix : Bool) :
    readNumber radix maxDigits allowZeroPrefix limit input = none := by
  unfold readNumber
  rw [readDigits_stop h]
  rfl

theorem readNumber_rest {input rest : Bytes} {allowZeroPrefix : Bool} {n : Nat}
    (h : readNumber radix maxDigits allowZeroPrefix limit input = some (n, rest)) :
    rest = input.dropWhile fun byte => (toDigit radix byte).isSome := by
  unfold readNumber at h
  split at h
  · cases h
  · rename_i result count left hread
    have hleft := readDigits_rest hread
    repeat' split at h
    all_goals cases h
    exact hleft

end Numbers

/-! ## Addresses of the fourth version -/

theorem readGivenChar_self (target : UInt8) (rest : Bytes) :
    readGivenChar target (target :: rest) = some rest := if_pos rfl

theorem readGivenChar_other {target : UInt8} {rest : Bytes} (h : rest.head? ≠ some target) :
    readGivenChar target rest = none := by
  cases rest with
  | nil => rfl
  | cons byte rest => exact if_neg fun heq => h (congrArg some heq)

theorem readNumber_octet (octet : UInt8) {rest : Bytes} (h : StopsDigits 10 rest) :
    ((readNumber 10 (some 3) false 256 (decimal octet.toNat ++ rest)).map fun (n, rest) =>
      (UInt8.ofNat n, rest)) = some (octet, rest) := by
  have hlt := octet.toNat_lt
  have hread := @readNumber_digits 10 256 (some 3) (by decide) (by decide) octet.toNat
    (fun most hmost => Option.some.inj hmost ▸ (by omega)) hlt _ h false
  rw [decimal_eq_digits, hread, Option.map_some]
  dsimp only
  rw [UInt8.ofNat_toNat]

theorem readOctet_zero (octet : UInt8) {rest : Bytes} (h : StopsDigits 10 rest) :
    readOctet 0 (decimal octet.toNat ++ rest) = some (octet, rest) := readNumber_octet octet h

theorem readOctet_succ (index : Nat) (octet : UInt8) {rest : Bytes} (h : StopsDigits 10 rest) :
    readOctet (index + 1) (dot :: (decimal octet.toNat ++ rest)) = some (octet, rest) := by
  rw [readOctet, readSeparator, if_pos (Nat.succ_pos index), readGivenChar_self]
  exact readNumber_octet octet h

theorem readIpv4Addr_toText (ip : Ipv4Addr) {rest : Bytes} (h : StopsDigits 10 rest) :
    readIpv4Addr (ip.toText ++ rest) = some (ip, rest) := by
  have hdot : ∀ tail, StopsDigits 10 (dot :: tail) := StopsDigits.cons (by decide)
  unfold readIpv4Addr Ipv4Addr.toText
  simp only [List.append_assoc, List.cons_append]
  rw [readOctet_zero ip.a (hdot _), Option.bind_eq_bind, Option.bind_some,
    readOctet_succ 0 ip.b (hdot _), Option.bind_some, readOctet_succ 1 ip.c (hdot _),
    Option.bind_some, readOctet_succ 2 ip.d h, Option.bind_some]

/-- Behind the first digits there is no dot. -/
theorem readIpv4Addr_no_dot {input : Bytes}
    (h : (input.dropWhile fun byte => (toDigit 10 byte).isSome).head? ≠ some dot) :
    readIpv4Addr input = none := by
  unfold readIpv4Addr
  cases hfirst : readOctet 0 input with
  | none => rfl
  | some first =>
    obtain ⟨octet, rest⟩ := first
    have hrest : rest = input.dropWhile fun byte => (toDigit 10 byte).isSome := by
      obtain ⟨⟨n, left⟩, hread, hpair⟩ := Option.map_eq_some_iff.1 hfirst
      cases hpair
      exact readNumber_rest hread
    have hsecond : readOctet 1 rest = none := by
      rw [readOctet, readSeparator, if_pos Nat.one_pos, readGivenChar_other (hrest ▸ h)]
      rfl
    rw [Option.bind_eq_bind, Option.bind_some]
    dsimp only
    rw [hsecond]
    rfl

/-! ## Groups -/

/-- A group has ended. -/
structure EndsGroup (rest : Bytes) : Prop where
  no_digit : StopsDigits 16 rest
  no_dot : rest.head? ≠ some dot

theorem StopsDigits.ten {rest : Bytes} (h : StopsDigits 16 rest) : StopsDigits 10 rest :=
  fun byte hbyte => toDigit_mono (by decide) (h byte hbyte)

theorem endsGroup_colon (rest : Bytes) : EndsGroup (colon :: rest) where
  no_digit := StopsDigits.cons (by decide) rest
  no_dot := by simp [colon, dot]

theorem dropWhile_digits_stop {rest : Bytes} (h : StopsDigits 10 rest) :
    rest.dropWhile (fun byte => (toDigit 10 byte).isSome) = rest := by
  cases rest with
  | nil => rfl
  | cons byte rest =>
    rw [List.dropWhile_cons, h byte rfl]
    rfl

theorem dot_notMem_hexadecimal (n : Nat) : dot ∉ hexadecimal n := by
  intro h
  obtain ⟨value, hvalue, heq⟩ := mem_digits (by decide) n dot h
  have hbyte := toNat_digitByte hvalue
  rw [← heq] at hbyte
  have hdot : dot.toNat = 0x2E := rfl
  split at hbyte
  all_goals omega

theorem readIpv4Addr_group (n : Nat) {rest : Bytes} (h : EndsGroup rest) :
    readIpv4Addr (hexadecimal n ++ rest) = none := by
  refine readIpv4Addr_no_dot ?_
  rw [List.dropWhile_append]
  split
  · rw [dropWhile_digits_stop h.no_digit.ten]
    exact h.no_dot
  · rename_i hleft
    rw [List.isEmpty_iff] at hleft
    rw [List.head?_append_of_ne_nil _ hleft]
    intro hdot
    exact dot_notMem_hexadecimal n
      ((List.dropWhile_sublist _).subset (List.mem_of_head? hdot))

theorem readIpv4Addr_stop {input : Bytes} (h : StopsDigits 10 input) : readIpv4Addr input = none := by
  have hfirst : readOctet 0 input = none := by
    rw [readOctet, readSeparator, if_neg (Nat.lt_irrefl 0), readNumber_stop h]
    rfl
  unfold readIpv4Addr
  rw [hfirst]
  rfl

theorem readNumber_group (segment : UInt16) {rest : Bytes} (h : StopsDigits 16 rest) :
    ((readNumber 16 (some 4) true 65536 (hexadecimal segment.toNat ++ rest)).map fun (n, rest) =>
      (UInt16.ofNat n, rest)) = some (segment, rest) := by
  have hlt := segment.toNat_lt
  have hread := @readNumber_digits 16 65536 (some 4) (by decide) (by decide) segment.toNat
    (fun most hmost => Option.some.inj hmost ▸ (by omega)) hlt _ h true
  rw [hexadecimal, hread, Option.map_some]
  dsimp only
  rw [UInt16.ofNat_toNat]

theorem readGroups_first (room : Nat) (segment : UInt16) {rest : Bytes} (h : EndsGroup rest) :
    readGroups (room + 1) 0 (hexadecimal segment.toNat ++ rest) =
      (segment :: (readGroups room 1 rest).1, (readGroups room 1 rest).2) := by
  have hgroup : readGroup 0 (hexadecimal segment.toNat ++ rest) = some (segment, rest) :=
    readNumber_group segment h.no_digit
  have hipv4 : (if room > 0 then
      readSeparator colon 0 readIpv4Addr (hexadecimal segment.toNat ++ rest) else none) = none := by
    split
    · exact readIpv4Addr_group _ h
    · rfl
  rw [readGroups, hipv4, hgroup]

theorem readGroups_next (room index : Nat) (segment : UInt16) {rest : Bytes} (h : EndsGroup rest) :
    readGroups (room + 1) (index + 1) (colon :: (hexadecimal segment.toNat ++ rest)) =
      (segment :: (readGroups room (index + 2) rest).1, (readGroups room (index + 2) rest).2) := by
  have hgroup : readGroup (index + 1) (colon :: (hexadecimal segment.toNat ++ rest)) =
      some (segment, rest) := by
    rw [readGroup, readSeparator, if_pos (Nat.succ_pos index), readGivenChar_self]
    exact readNumber_group segment h.no_digit
  have hipv4 : (if room > 0 then readSeparator colon (index + 1) readIpv4Addr
      (colon :: (hexadecimal segment.toNat ++ rest)) else none) = none := by
    split
    · rw [readSeparator, if_pos (Nat.succ_pos index), readGivenChar_self]
      exact readIpv4Addr_group _ h
    · rfl
  rw [readGroups, hipv4, hgroup]

theorem readGroups_none_first (room : Nat) {rest : Bytes} (h : StopsDigits 16 rest) :
    readGroups room 0 rest = ([], false, rest) := by
  cases room with
  | zero => rfl
  | succ room =>
    have hgroup : readGroup 0 rest = none := by
      rw [readGroup, readSeparator, if_neg (Nat.lt_irrefl 0), readNumber_stop h]
      rfl
    have hipv4 : (if room > 0 then readSeparator colon 0 readIpv4Addr rest else none) = none := by
      split
      · exact readIpv4Addr_stop h.ten
      · rfl
    rw [readGroups, hipv4, hgroup]

/-- No group follows behind a colon. -/
def NoGroup (rest : Bytes) : Prop :=
  ∀ inner, readGivenChar colon rest = some inner → StopsDigits 16 inner

theorem NoGroup.readSeparator_eq {α : Type} {rest : Bytes} (h : NoGroup rest) (index : Nat)
    {inner : Bytes → Option (α × Bytes)} (hinner : ∀ input, StopsDigits 16 input → inner input = none) :
    readSeparator colon (index + 1) inner rest = none := by
  rw [readSeparator, if_pos (Nat.succ_pos index)]
  cases hread : readGivenChar colon rest with
  | none => rfl
  | some input => exact hinner input (h input hread)

theorem readGroups_none_next (room index : Nat) {rest : Bytes} (h : NoGroup rest) :
    readGroups room (index + 1) rest = ([], false, rest) := by
  cases room with
  | zero => rfl
  | succ room =>
    have hgroup : readGroup (index + 1) rest = none := by
      refine h.readSeparator_eq index fun input hinput => ?_
      rw [readNumber_stop hinput]
      rfl
    have hipv4 : (if room > 0 then readSeparator colon (index + 1) readIpv4Addr rest else none) =
        none := by
      split
      · exact h.readSeparator_eq index fun input hinput => readIpv4Addr_stop hinput.ten
      · rfl
    rw [readGroups, hipv4, hgroup]

theorem endsGroup_moreGroups (segments : List UInt16) {rest : Bytes} (h : EndsGroup rest) :
    EndsGroup (moreGroups segments ++ rest) := by
  cases segments with
  | nil => exact h
  | cons segment segments => exact endsGroup_colon _

theorem readGroups_moreGroups (segments : List UInt16) (room index : Nat) {rest : Bytes}
    (h : EndsGroup rest) :
    readGroups (segments.length + room) (index + 1) (moreGroups segments ++ rest) =
      (segments ++ (readGroups room (index + 1 + segments.length) rest).1,
        (readGroups room (index + 1 + segments.length) rest).2) := by
  induction segments generalizing index with
  | nil =>
    rw [List.length_nil, Nat.zero_add]
    rfl
  | cons segment segments ih =>
    have htext : moreGroups (segment :: segments) ++ rest =
        colon :: (hexadecimal segment.toNat ++ (moreGroups segments ++ rest)) := by
      rw [moreGroups, List.flatMap_cons, ← moreGroups]
      simp only [List.cons_append, List.append_assoc]
    have hroom : (segment :: segments).length + room = (segments.length + room) + 1 := by
      rw [List.length_cons]
      omega
    have hindex : index + 1 + (segment :: segments).length = index + 1 + 1 + segments.length := by
      rw [List.length_cons]
      omega
    rw [htext, hroom, readGroups_next _ _ _ (endsGroup_moreGroups segments h), ih, hindex]
    rfl

/-- A list of groups is read as it was written, and what follows it is read behind them. -/
theorem readGroups_fmtSubslice (segments : List UInt16) (room : Nat) {rest : Bytes}
    (h : EndsGroup rest) :
    readGroups (segments.length + room) 0 (fmtSubslice segments ++ rest) =
      (segments ++ (readGroups room segments.length rest).1,
        (readGroups room segments.length rest).2) := by
  cases segments with
  | nil =>
    rw [List.length_nil, Nat.zero_add]
    rfl
  | cons segment segments =>
    have hroom : (segment :: segments).length + room = (segments.length + room) + 1 := by
      rw [List.length_cons]
      omega
    rw [hroom, fmtSubslice, List.append_assoc,
      readGroups_first _ _ (endsGroup_moreGroups segments h), readGroups_moreGroups segments _ _ h,
      List.length_cons, Nat.zero_add, Nat.add_comm 1]
    rfl

/-! ## Addresses of the sixth version -/

/-- An address has ended. -/
structure EndsAddress (rest : Bytes) : Prop where
  endsGroup : EndsGroup rest
  no_colon : rest.head? ≠ some colon

theorem EndsAddress.noGroup {rest : Bytes} (h : EndsAddress rest) : NoGroup rest := by
  intro inner hinner
  rw [readGivenChar_other h.no_colon] at hinner
  cases hinner

theorem noGroup_colons (rest : Bytes) : NoGroup (colon :: colon :: rest) := by
  intro inner hinner
  rw [readGivenChar_self] at hinner
  cases hinner
  exact (endsGroup_colon rest).no_digit

/-- Behind the groups there are no more. -/
theorem readGroups_none (room index : Nat) {rest : Bytes} (hfirst : StopsDigits 16 rest)
    (hnext : NoGroup rest) : readGroups room index rest = ([], false, rest) := by
  cases index with
  | zero => exact readGroups_none_first room hfirst
  | succ index => exact readGroups_none_next room index hnext

theorem readIpv6Addr_whole (ip : Ipv6Addr) {rest : Bytes} (h : EndsAddress rest) :
    readIpv6Addr (fmtSubslice ip.segments ++ rest) = some (ip, rest) := by
  have hhead := readGroups_fmtSubslice ip.segments 0 h.endsGroup
  rw [ip.eight, Nat.add_zero, readGroups, List.append_nil] at hhead
  unfold readIpv6Addr
  simp only [hhead, ip.eight, dite_true]

theorem readIpv6Addr_colons (ip : Ipv6Addr) {before after : List UInt16} {input middle rest : Bytes}
    {ipv4 : Bool} (hlt : before.length < 8)
    (hhead : readGroups 8 0 input = (before, false, colon :: colon :: middle))
    (htail : readGroups (8 - (before.length + 1)) 0 middle = (after, ipv4, rest))
    (hip : ip.segments = before ++ List.replicate (8 - before.length - after.length) 0 ++ after) :
    readIpv6Addr input = some (ip, rest) := by
  obtain ⟨segments, hsegments⟩ := ip
  cases hip
  unfold readIpv6Addr
  simp only [hhead, readGivenChar_self, Option.bind_some, htail]
  rw [dif_neg (Nat.ne_of_lt hlt)]
  rfl

/-- All segments of the span are zero. -/
def Span.Zeros (span : Span) (segments : List UInt16) : Prop :=
  ∀ i, span.start ≤ i → i < span.start + span.len → segments[i]? = some 0

theorem Span.Zeros.empty (start : Nat) (segments : List UInt16) :
    Zeros { start, len := 0 } segments := by
  intro i hi hlt
  exact absurd hlt (Nat.not_lt.2 hi)

theorem longestZeros_zeros {segments done : List UInt16} {current longest : Span}
    (hcurrent : current.Zeros (done ++ segments)) (hlongest : longest.Zeros (done ++ segments))
    (hend : 0 < current.len → current.start + current.len = done.length) :
    (longestZeros done.length current longest segments).Zeros (done ++ segments) := by
  induction segments generalizing done current longest with
  | nil => exact hlongest
  | cons segment segments ih =>
    have hdone : done ++ segment :: segments = (done ++ [segment]) ++ segments := by simp
    have hlength : done.length + 1 = (done ++ [segment]).length := by simp
    rw [longestZeros, hlength]
    rw [hdone] at hcurrent hlongest ⊢
    split
    case isFalse => exact ih (Span.Zeros.empty 0 _) hlongest (fun h => absurd h (Nat.lt_irrefl 0))
    case isTrue hzero =>
      have hhere : (done ++ [segment] ++ segments)[done.length]? = some 0 := by
        simp [hzero]
      have hstart : (if current.len = 0 then done.length else current.start) + (current.len + 1) =
          (done ++ [segment]).length := by
        rw [← hlength]
        split
        · omega
        · have := hend (by omega)
          omega
      have hgrown : Span.Zeros
          { start := if current.len = 0 then done.length else current.start
            len := current.len + 1 } (done ++ [segment] ++ segments) := by
        intro i hi hlt
        dsimp only at hi hlt
        rw [hstart, ← hlength] at hlt
        by_cases hlast : i = done.length
        · rw [hlast]
          exact hhere
        · split at hi
          · omega
          · have := hend (by omega)
            exact hcurrent i hi (by omega)
      have hlonger : ∀ a b : Span, a.Zeros (done ++ [segment] ++ segments) →
          b.Zeros (done ++ [segment] ++ segments) →
          (if a.len > b.len then a else b).Zeros (done ++ [segment] ++ segments) := by
        intro a b ha hb
        split
        · exact ha
        · exact hb
      exact ih hgrown (hlonger _ _ hgrown hlongest) fun _ => hstart

/-- The segments around a span of zeros. -/
theorem Span.Zeros.split {span : Span} {segments : List UInt16} (h : span.Zeros segments)
    (hlen : 0 < span.len) :
    span.start + span.len ≤ segments.length ∧
      segments = segments.take span.start ++ List.replicate span.len 0 ++
        segments.drop (span.start + span.len) := by
  have hle : span.start + span.len ≤ segments.length := by
    have hlast := h (span.start + span.len - 1) (by omega) (by omega)
    have := (List.getElem?_eq_some_iff.1 hlast).1
    omega
  have hmiddle : (segments.drop span.start).take span.len = List.replicate span.len 0 := by
    refine List.ext_getElem? fun i => ?_
    rw [List.getElem?_take, List.getElem?_replicate, List.getElem?_drop]
    by_cases hi : i < span.len
    · rw [if_pos hi, if_pos hi]
      exact h _ (by omega) (by omega)
    · rw [if_neg hi, if_neg hi]
  refine ⟨hle, ?_⟩
  rw [← hmiddle, ← List.drop_drop, List.append_assoc, List.take_append_drop, List.take_append_drop]

theorem readIpv6Addr_compressed (ip : Ipv6Addr) {span : Span} (hzeros : span.Zeros ip.segments)
    (hlen : span.len > 1) {rest : Bytes} (h : EndsAddress rest) :
    readIpv6Addr (fmtSubslice (ip.segments.take span.start) ++
        colon :: colon :: (fmtSubslice (ip.segments.drop (span.start + span.len)) ++ rest)) =
      some (ip, rest) := by
  obtain ⟨hle, hsplit⟩ := hzeros.split (by omega)
  have height := ip.eight
  have hbefore : (ip.segments.take span.start).length = span.start :=
    List.length_take_of_le (by omega)
  have hafter : (ip.segments.drop (span.start + span.len)).length = 8 - (span.start + span.len) := by
    rw [List.length_drop, height]
  generalize ip.segments.take span.start = before at hsplit hbefore ⊢
  generalize ip.segments.drop (span.start + span.len) = after at hsplit hafter ⊢
  have hhead := readGroups_fmtSubslice before (8 - before.length)
    (endsGroup_colon (colon :: (fmtSubslice after ++ rest)))
  rw [Nat.add_sub_cancel' (by omega), readGroups_none _ _ (endsGroup_colon _).no_digit
    (noGroup_colons _), List.append_nil] at hhead
  have htail := readGroups_fmtSubslice after (8 - (before.length + 1) - after.length) h.endsGroup
  rw [Nat.add_sub_cancel' (by omega), readGroups_none _ _ h.endsGroup.no_digit h.noGroup,
    List.append_nil] at htail
  refine readIpv6Addr_colons ip (by omega) hhead htail ?_
  have hcount : 8 - before.length - after.length = span.len := by omega
  rw [hcount]
  exact hsplit

theorem fromOctets_octets (segment : UInt16) :
    fromOctets (octets segment).1 (octets segment).2 = segment := by
  refine UInt16.toNat_inj.1 ?_
  have hlt := segment.toNat_lt
  have hhigh : segment.toNat >>> 8 < 256 := by
    rw [Nat.shiftRight_eq_div_pow]
    omega
  simp only [fromOctets, octets, UInt16.toNat_or, UInt16.toNat_shiftLeft, UInt8.toNat_toUInt16,
    UInt16.toNat_toUInt8, UInt16.toNat_shiftRight]
  have hlow : segment.toNat % 256 < 2 ^ 8 := Nat.mod_lt _ (by decide)
  show (segment.toNat >>> 8 % 256) <<< 8 % 65536 ||| segment.toNat % 256 = segment.toNat
  rw [Nat.mod_eq_of_lt hhigh, Nat.mod_eq_of_lt (by rw [Nat.shiftLeft_eq]; omega),
    ← Nat.shiftLeft_add_eq_or_of_lt hlow, Nat.shiftLeft_eq, Nat.shiftRight_eq_div_pow]
  omega

theorem toIpv4Mapped_eq_some {segments : List UInt16} {ipv4 : Ipv4Addr}
    (h : toIpv4Mapped segments = some ipv4) :
    segments = mappedPrefix ++ [fromOctets ipv4.a ipv4.b, fromOctets ipv4.c ipv4.d] := by
  unfold toIpv4Mapped at h
  split at h
  case isFalse => cases h
  case isTrue hfront =>
    split at h
    case h_2 => cases h
    case h_1 high low hback =>
      cases h
      rw [fromOctets_octets, fromOctets_octets, ← hback, ← hfront, List.take_append_drop]

theorem readIpv6Addr_mapped (ip : Ipv6Addr) {ipv4 : Ipv4Addr}
    (hmapped : toIpv4Mapped ip.segments = some ipv4) {rest : Bytes} (h : StopsDigits 10 rest) :
    readIpv6Addr (colon :: colon :: (hexadecimal 0xFFFF ++ colon :: (ipv4.toText ++ rest))) =
      some (ip, rest) := by
  have hhead : readGroups 8 0
      (colon :: colon :: (hexadecimal 0xFFFF ++ colon :: (ipv4.toText ++ rest))) =
        ([], false, colon :: colon :: (hexadecimal 0xFFFF ++ colon :: (ipv4.toText ++ rest))) :=
    readGroups_none_first 8 (endsGroup_colon _).no_digit
  have hipv4 : readGroups 6 1 (colon :: (ipv4.toText ++ rest)) =
      ([fromOctets ipv4.a ipv4.b, fromOctets ipv4.c ipv4.d], true, rest) := by
    rw [readGroups, if_pos (by decide), readSeparator, if_pos (by decide), readGivenChar_self,
      Option.bind_some, readIpv4Addr_toText ipv4 h]
  have htail := readGroups_first 6 0xFFFF (endsGroup_colon (ipv4.toText ++ rest))
  rw [hipv4] at htail
  refine readIpv6Addr_colons ip (by decide) hhead htail ?_
  rw [toIpv4Mapped_eq_some hmapped]
  rfl

theorem readIpv6Addr_toText (ip : Ipv6Addr) {rest : Bytes} (h : EndsAddress rest) :
    readIpv6Addr (ip.toText ++ rest) = some (ip, rest) := by
  unfold Ipv6Addr.toText
  split
  case h_1 ipv4 hmapped =>
    have hread := readIpv6Addr_mapped ip hmapped h.endsGroup.no_digit.ten
    simpa only [List.cons_append, List.append_assoc] using hread
  case h_2 =>
    dsimp only
    split
    case isTrue hlen =>
      have hzeros : (longestZeros 0 {} {} ip.segments).Zeros ip.segments :=
        @longestZeros_zeros ip.segments [] {} {} (Span.Zeros.empty 0 _) (Span.Zeros.empty 0 _)
          (fun h => absurd h (Nat.lt_irrefl 0))
      have hread := readIpv6Addr_compressed ip hzeros hlen h
      simpa only [List.cons_append, List.append_assoc] using hread
    case isFalse => exact readIpv6Addr_whole ip h

/-! ## Socket addresses -/

theorem readPort_toText (port : UInt16) : readPort (colon :: decimal port.toNat) = some (port, []) := by
  have hlt := port.toNat_lt
  have hread := @readNumber_digits 10 65536 none (by decide) (by decide) port.toNat
    (fun _ hmost => nomatch hmost) hlt _ (stopsDigits_nil 10) true
  rw [List.append_nil] at hread
  rw [readPort, readGivenChar_self, Option.bind_some, decimal_eq_digits, hread, Option.map_some]
  dsimp only
  rw [UInt16.ofNat_toNat]

theorem readScopeId_toText (scopeId : UInt32) (rest : Bytes) :
    (readScopeId (scopeText scopeId ++ closeBracket :: rest)).getD
        (0, scopeText scopeId ++ closeBracket :: rest) = (scopeId, closeBracket :: rest) := by
  unfold scopeText
  split
  case isTrue hzero =>
    rw [hzero, List.nil_append, readScopeId, readGivenChar_other (by simp [closeBracket, percent])]
    rfl
  case isFalse =>
    have hlt := scopeId.toNat_lt
    have hread := @readNumber_digits 10 (2 ^ 32) none (by decide) (by decide) scopeId.toNat
      (fun _ hmost => nomatch hmost) hlt (closeBracket :: rest)
      (StopsDigits.cons (by decide) rest) true
    rw [readScopeId, List.cons_append, readGivenChar_self, Option.bind_some, decimal_eq_digits,
      hread, Option.map_some]
    dsimp only
    rw [UInt32.ofNat_toNat]
    rfl

theorem endsAddress_scopeText (scopeId : UInt32) (rest : Bytes) :
    EndsAddress (scopeText scopeId ++ closeBracket :: rest) := by
  unfold scopeText
  split
  · exact
      { endsGroup := ⟨StopsDigits.cons (by decide) rest, by simp [closeBracket, dot]⟩
        no_colon := by simp [closeBracket, colon] }
  · exact
      { endsGroup := ⟨StopsDigits.cons (by decide) _, by simp [percent, dot]⟩
        no_colon := by simp [percent, colon] }

/-- The text of an address is read as this address. -/
theorem parse_toText (address : SocketAddr) : SocketAddr.parse address.toText = some address := by
  unfold SocketAddr.parse
  cases address with
  | v4 ip port =>
    have hread : readSocketAddrV4 (SocketAddr.v4 ip port).toText = some (.v4 ip port, []) := by
      rw [readSocketAddrV4, SocketAddr.toText,
        readIpv4Addr_toText ip (endsGroup_colon _).no_digit.ten, Option.bind_eq_bind,
        Option.bind_some]
      dsimp only
      rw [readPort_toText, Option.bind_eq_bind, Option.bind_some]
    rw [hread]
    rfl
  | v6 ip port scopeId =>
    have hfourth : readSocketAddrV4 (SocketAddr.v6 ip port scopeId).toText = none := by
      rw [readSocketAddrV4, SocketAddr.toText,
        readIpv4Addr_stop (StopsDigits.cons (by decide) _)]
      rfl
    have hread : readSocketAddrV6 (SocketAddr.v6 ip port scopeId).toText =
        some (.v6 ip port scopeId, []) := by
      rw [readSocketAddrV6, SocketAddr.toText, readGivenChar_self, Option.bind_eq_bind,
        Option.bind_some, readIpv6Addr_toText ip (endsAddress_scopeText scopeId _),
        Option.bind_eq_bind, Option.bind_some]
      dsimp only
      rw [readScopeId_toText]
      dsimp only
      rw [readGivenChar_self, Option.bind_some, readPort_toText, Option.bind_eq_bind,
        Option.bind_some]
    rw [hfourth, hread]
    rfl

/-! ## The bytes of the texts -/

/-- Hexadecimal digits in lower case, and what stands around them. -/
def isAddressByte (byte : UInt8) : Bool :=
  isAsciiDigit byte || (0x61 ≤ byte && byte ≤ 0x66) || byte = dot || byte = colon ||
    byte = percent || byte = openBracket || byte = closeBracket

/-- At most `n` bytes, all of them bytes of addresses. -/
structure AddressText (n : Nat) (text : Bytes) : Prop where
  length_le : text.length ≤ n
  bytes : ∀ byte ∈ text, isAddressByte byte = true

theorem AddressText.nil : AddressText 0 [] := ⟨Nat.le_refl 0, by simp⟩

theorem AddressText.append {n m : Nat} {left right : Bytes} (hleft : AddressText n left)
    (hright : AddressText m right) : AddressText (n + m) (left ++ right) where
  length_le := by
    rw [List.length_append]
    exact Nat.add_le_add hleft.length_le hright.length_le
  bytes byte hbyte := by
    rcases List.mem_append.1 hbyte with hbyte | hbyte
    · exact hleft.bytes byte hbyte
    · exact hright.bytes byte hbyte

theorem AddressText.cons {n : Nat} {byte : UInt8} {text : Bytes} (hbyte : isAddressByte byte = true)
    (h : AddressText n text) : AddressText (n + 1) (byte :: text) where
  length_le := Nat.succ_le_succ h.length_le
  bytes b hb := by
    rcases List.mem_cons.1 hb with rfl | hb
    · exact hbyte
    · exact h.bytes b hb

theorem AddressText.mono {n m : Nat} {text : Bytes} (h : AddressText n text) (hle : n ≤ m) :
    AddressText m text := ⟨h.length_le.trans hle, h.bytes⟩

theorem addressText_digits {base n k : Nat} (hbase : 1 < base) (hsmall : base ≤ 16) (hk : 0 < k)
    (hn : n < base ^ k) : AddressText k (digits base n) where
  length_le := (length_digits_le_iff hbase hk).2 hn
  bytes byte hbyte := by
    have hall : ∀ value < 16, isAddressByte (digitByte value) = true := by decide +kernel
    obtain ⟨value, hvalue, rfl⟩ := mem_digits hbase n byte hbyte
    exact hall value (by omega)

theorem addressText_octet (octet : UInt8) : AddressText 3 (decimal octet.toNat) := by
  have hlt := octet.toNat_lt
  exact addressText_digits (by decide) (by decide) (by decide) (by omega)

theorem addressText_segment (segment : UInt16) : AddressText 4 (hexadecimal segment.toNat) := by
  have hlt := segment.toNat_lt
  exact addressText_digits (by decide) (by decide) (by decide) (by omega)

theorem addressText_ipv4 (ip : Ipv4Addr) : AddressText 15 ip.toText :=
  (addressText_octet ip.a).append (.cons (by decide) ((addressText_octet ip.b).append
    (.cons (by decide) ((addressText_octet ip.c).append
      (.cons (by decide) (addressText_octet ip.d))))))

theorem addressText_moreGroups (segments : List UInt16) :
    AddressText (5 * segments.length) (moreGroups segments) := by
  induction segments with
  | nil => exact .nil
  | cons segment segments ih =>
    rw [moreGroups, List.flatMap_cons, ← moreGroups, List.length_cons]
    exact ((AddressText.cons (by decide) (addressText_segment segment)).append ih).mono (by omega)

theorem addressText_fmtSubslice (segments : List UInt16) :
    AddressText (5 * segments.length) (fmtSubslice segments) := by
  cases segments with
  | nil => exact .nil
  | cons segment segments =>
    rw [List.length_cons]
    exact ((addressText_segment segment).append (addressText_moreGroups segments)).mono (by omega)

theorem addressText_ipv6 (ip : Ipv6Addr) : AddressText 82 ip.toText := by
  have height := ip.eight
  have hpart : ∀ segments : List UInt16, segments.length ≤ 8 →
      AddressText 40 (fmtSubslice segments) := by
    intro segments hle
    exact (addressText_fmtSubslice segments).mono (by omega)
  unfold Ipv6Addr.toText
  split
  case h_1 ipv4 _ =>
    have hgroup : AddressText 4 (hexadecimal 0xFFFF) := addressText_segment 0xFFFF
    exact (AddressText.cons (by decide) (.cons (by decide) (hgroup.append
      (.cons (by decide) (addressText_ipv4 ipv4))))).mono (by decide)
  case h_2 =>
    dsimp only
    split
    · refine (hpart _ ?_).append (.cons (by decide) (.cons (by decide) (hpart _ ?_)))
      · rw [List.length_take]
        omega
      · rw [List.length_drop]
        omega
    · exact (hpart ip.segments (by omega)).mono (by decide)

theorem addressText_toText (address : SocketAddr) : AddressText 128 address.toText := by
  have hport : ∀ port : UInt16, AddressText 6 (colon :: decimal port.toNat) := by
    intro port
    have hlt := port.toNat_lt
    exact .cons (by decide) (addressText_digits (by decide) (by decide) (by decide) (by omega))
  cases address with
  | v4 ip port => exact ((addressText_ipv4 ip).append (hport port)).mono (by decide)
  | v6 ip port scopeId =>
    have hscope : AddressText 11 (scopeText scopeId) := by
      have hlt := scopeId.toNat_lt
      unfold scopeText
      split
      · exact AddressText.nil.mono (by decide)
      · exact .cons (by decide)
          (addressText_digits (by decide) (by decide) (by decide) (by omega))
    exact (AddressText.cons (by decide) ((addressText_ipv6 ip).append (hscope.append
      (.cons (by decide) (hport port))))).mono (by decide)

end Fluxcope.Library.Net
