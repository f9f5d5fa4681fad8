import Fproxy.Net
import Mathlib.Data.List.Basic

/-!
# The text form of an IP address

The parser behind `str::parse::<IpAddr>()`: four decimal octets, or up to eight hexadecimal groups
with at most one `::` and possibly four octets at the end.  A reader takes the front of the text
and leaves the rest.

* **`IpAddr.addrChar_of_fromStr`** — an address is written with hexadecimal digits, dots and
  colons.
* `IpAddr.fromStr_anyHost_colon` — no address begins with `0.0.0.0:`.
-/

namespace Fproxy.IpAddr

/-- A reader: what it has read, and the text left. -/
abbrev Reader (α : Type) := List Char → Option (α × List Char)

/-- `char::to_digit`. -/
def toDigit (radix : ℕ) (c : Char) : Option ℕ :=
  let d :=
    if '0' ≤ c ∧ c ≤ '9' then c.toNat - '0'.toNat
    else if 'a' ≤ c ∧ c ≤ 'z' then c.toNat - 'a'.toNat + 10
    else if 'A' ≤ c ∧ c ≤ 'Z' then c.toNat - 'A'.toNat + 10
    else radix
  if d < radix then some d else none

/-- `read_given_char`. -/
def readGivenChar (c : Char) : Reader Unit
  | x :: rest => if x = c then some ((), rest) else none
  | [] => none

/-- `read_separator`: every element but the first stands behind a separator. -/
def readSeparator {α : Type} (sep : Char) (index : ℕ) (inner : Reader α) : Reader α := fun s =>
  if index = 0 then inner s
  else (readGivenChar sep s).bind fun r => inner r.2

/-- The loop of `read_number`: the number read so far and how many digits it has. -/
def readDigits (radix maxDigits : ℕ) : ℕ → ℕ → Reader (ℕ × ℕ)
  | result, count, [] => some ((result, count), [])
  | result, count, c :: rest =>
      match toDigit radix c with
      | none => some ((result, count), c :: rest)
      | some d =>
          if maxDigits < count + 1 then none
          else readDigits radix maxDigits (result * radix + d) (count + 1) rest

/-- `read_number`, for a type that holds the numbers below `bound`. -/
def readNumber (radix maxDigits : ℕ) (allowZeroPrefix : Bool) (bound : ℕ) : Reader ℕ := fun s =>
  (readDigits radix maxDigits 0 0 s).bind fun r =>
    let (result, count) := r.1
    if count = 0 then none
    else if !allowZeroPrefix && s.head? = some '0' && 1 < count then none
    else if result < bound then some (result, r.2)
    else none

/-- The loop of `read_ipv4_addr`, with `n` octets to go. -/
def readOctets : ℕ → ℕ → Reader (List ℕ)
  | 0, _, s => some ([], s)
  | n + 1, i, s =>
      (readSeparator '.' i (readNumber 10 3 false 256) s).bind fun r =>
        (readOctets n (i + 1) r.2).bind fun rs => some (r.1 :: rs.1, rs.2)

/-- The value of big-endian digits. -/
def ofDigits (base : ℕ) (digits : List ℕ) : ℕ := digits.foldl (fun acc d => acc * base + d) 0

/-- `read_ipv4_addr`. -/
def readIpv4Addr : Reader (BitVec 32) := fun s =>
  (readOctets 4 0 s).bind fun r => some (BitVec.ofNat 32 (ofDigits 256 r.1), r.2)

/-- `read_groups`, with `n` groups to go: the groups, and whether they end in an IPv4 address. -/
def readGroups : ℕ → ℕ → List Char → (List ℕ × Bool) × List Char
  | 0, _, s => (([], false), s)
  | n + 1, i, s =>
      -- four octets need room for two groups
      match if 0 < n then readSeparator ':' i readIpv4Addr s else none with
      | some (addr, rest) => (([addr.toNat / 65536, addr.toNat % 65536], true), rest)
      | none =>
          match readSeparator ':' i (readNumber 16 4 true 65536) s with
          | none => (([], false), s)
          | some (g, rest) =>
              let r := readGroups n (i + 1) rest
              ((g :: r.1.1, r.1.2), r.2)

/-- `read_ipv6_addr`. -/
def readIpv6Addr : Reader (BitVec 128) := fun s =>
  let ((head, headIpv4), rest) := readGroups 8 0 s
  if head.length = 8 then some (BitVec.ofNat 128 (ofDigits 65536 head), rest)
  else if headIpv4 then none
  else
    (readGivenChar ':' rest).bind fun c₁ =>
      (readGivenChar ':' c₁.2).bind fun c₂ =>
        let ((tail, _), rest) := readGroups (8 - (head.length + 1)) 0 c₂.2
        let zeroes := List.replicate (8 - head.length - tail.length) 0
        some (BitVec.ofNat 128 (ofDigits 65536 (head ++ zeroes ++ tail)), rest)

/-- `read_ip_addr`. -/
def readIpAddr : Reader IpAddr := fun s =>
  match readIpv4Addr s with
  | some (addr, rest) => some (.v4 addr, rest)
  | none => (readIpv6Addr s).map fun r => (.v6 r.1, r.2)

/-- `IpAddr::from_str`: the whole text is one address. -/
def fromStr (s : List Char) : Option IpAddr :=
  match readIpAddr s with
  | some (ip, []) => some ip
  | _ => none

example : fromStr "192.168.1.1".toList = some (.v4 0xc0a80101#32) := by decide
example : fromStr "::1".toList = some (.v6 1#128) := by decide
example : fromStr "1:2::3:4.5.6.7".toList =
    some (.v6 0x00010002000000000000000304050607#128) := by decide
example : fromStr "01.2.3.4".toList = none ∧ fromStr "1::2::3".toList = none := by decide

/-! ### What an address is written with -/

/-- A hexadecimal digit, a dot or a colon. -/
def AddrChar (c : Char) : Prop := c = '.' ∨ c = ':' ∨ (toDigit 16 c).isSome

/-- Everything in front of the rest is an address character. -/
def Reads (s rest : List Char) : Prop := ∀ c ∈ s, c ∈ rest ∨ AddrChar c

/-- A reader that takes nothing else. -/
def Plain {α : Type} (p : Reader α) : Prop := ∀ s a rest, p s = some (a, rest) → Reads s rest

theorem Reads.refl (s : List Char) : Reads s s := fun _ hc => Or.inl hc

theorem Reads.trans {s t u : List Char} (hst : Reads s t) (htu : Reads t u) : Reads s u := by
  intro c hc
  rcases hst c hc with ht | haddr
  · exact htu c ht
  · exact Or.inr haddr

theorem Reads.cons {c : Char} {s rest : List Char} (hc : AddrChar c) (h : Reads s rest) :
    Reads (c :: s) rest := by
  intro x hx
  rcases List.mem_cons.mp hx with rfl | hx
  · exact Or.inr hc
  · exact h x hx

theorem addrChar_of_toDigit {radix d : ℕ} {c : Char} (hradix : radix ≤ 16)
    (h : toDigit radix c = some d) : AddrChar c := by
  refine Or.inr (Or.inr ?_)
  unfold toDigit at h ⊢
  split_ifs at h ⊢ <;> simp_all <;> omega

theorem readGivenChar_plain {c : Char} (hc : AddrChar c) : Plain (readGivenChar c) := by
  intro s a rest h
  cases s with
  | nil => exact absurd h (by simp [readGivenChar])
  | cons x s =>
      by_cases hx : x = c
      · have hrest : s = rest := by simpa [readGivenChar, hx] using h
        rw [hx, hrest]
        exact Reads.cons hc (Reads.refl rest)
      · exact absurd h (by simp [readGivenChar, hx])

theorem readSeparator_plain {α : Type} {sep : Char} {inner : Reader α} (i : ℕ)
    (hsep : AddrChar sep) (hinner : Plain inner) : Plain (readSeparator sep i inner) := by
  intro s a rest h
  unfold readSeparator at h
  split at h
  · exact hinner s a rest h
  · obtain ⟨⟨u, t⟩, hc, ht⟩ := Option.bind_eq_some_iff.mp h
    exact (readGivenChar_plain hsep s u t hc).trans (hinner t a rest ht)

theorem readDigits_plain {radix : ℕ} (hradix : radix ≤ 16) (maxDigits result count : ℕ) :
    Plain (readDigits radix maxDigits result count) := by
  intro s
  induction s generalizing result count with
  | nil =>
      intro a rest h c hc
      exact absurd hc List.not_mem_nil
  | cons c s ih =>
      intro a rest h
      unfold readDigits at h
      cases hd : toDigit radix c with
      | none =>
          have hrest : c :: s = rest := (Prod.mk.inj (Option.some.inj (by simpa [hd] using h))).2
          rw [hrest]
          exact Reads.refl rest
      | some d =>
          simp only [hd] at h
          split at h
          · exact absurd h (by simp)
          · exact Reads.cons (addrChar_of_toDigit hradix hd) (ih _ _ a rest h)

theorem readNumber_plain {radix : ℕ} (hradix : radix ≤ 16) (maxDigits bound : ℕ)
    (allowZeroPrefix : Bool) : Plain (readNumber radix maxDigits allowZeroPrefix bound) := by
  intro s a rest h
  obtain ⟨⟨⟨result, count⟩, t⟩, hdigits, hr⟩ := Option.bind_eq_some_iff.mp h
  have hrest : t = rest := by
    dsimp only at hr
    split_ifs at hr
    exact (Prod.mk.inj (Option.some.inj hr)).2
  rw [← hrest]
  exact readDigits_plain hradix maxDigits 0 0 s _ t hdigits

theorem readOctets_plain (n i : ℕ) : Plain (readOctets n i) := by
  induction n generalizing i with
  | zero =>
      intro s a rest h
      have hrest : s = rest := (Prod.mk.inj (Option.some.inj h)).2
      rw [hrest]
      exact Reads.refl rest
  | succ n ih =>
      intro s a rest h
      obtain ⟨⟨x, t⟩, hx, h⟩ := Option.bind_eq_some_iff.mp h
      obtain ⟨⟨xs, u⟩, hxs, h⟩ := Option.bind_eq_some_iff.mp h
      have hu : u = rest := (Prod.mk.inj (Option.some.inj h)).2
      have hfirst : Reads s t :=
        readSeparator_plain i (Or.inl rfl) (readNumber_plain (by omega) 3 256 false) s x t hx
      rw [← hu]
      exact hfirst.trans (ih (i + 1) t xs u hxs)

theorem readIpv4Addr_plain : Plain readIpv4Addr := by
  intro s a rest h
  obtain ⟨⟨octets, t⟩, ht, h⟩ := Option.bind_eq_some_iff.mp h
  have hrest : t = rest := (Prod.mk.inj (Option.some.inj h)).2
  rw [← hrest]
  exact readOctets_plain 4 0 s octets t ht

theorem readGroups_reads (n i : ℕ) (s : List Char) : Reads s (readGroups n i s).2 := by
  have hcolon : AddrChar ':' := Or.inr (Or.inl rfl)
  induction n generalizing i s with
  | zero => exact Reads.refl s
  | succ n ih =>
      unfold readGroups
      split
      · next addr rest h =>
          split at h
          · exact readSeparator_plain i hcolon readIpv4Addr_plain s addr rest h
          · exact absurd h (by simp)
      · split
        · exact Reads.refl s
        · next g rest h =>
            have hfirst : Reads s rest :=
              readSeparator_plain i hcolon (readNumber_plain (by omega) 4 65536 true) s g rest h
            exact hfirst.trans (ih (i + 1) rest)

theorem readIpv6Addr_plain : Plain readIpv6Addr := by
  have hcolon : AddrChar ':' := Or.inr (Or.inl rfl)
  intro s a rest h
  have hhead := readGroups_reads 8 0 s
  unfold readIpv6Addr at h
  dsimp only at h
  split at h
  · rw [← (Prod.mk.inj (Option.some.inj h)).2]
    exact hhead
  · split at h
    · exact absurd h (by simp)
    · obtain ⟨⟨u₁, t₁⟩, h₁, h⟩ := Option.bind_eq_some_iff.mp h
      obtain ⟨⟨u₂, t₂⟩, h₂, h⟩ := Option.bind_eq_some_iff.mp h
      rw [← (Prod.mk.inj (Option.some.inj h)).2]
      have hmark := (readGivenChar_plain hcolon _ u₁ t₁ h₁).trans
        (readGivenChar_plain hcolon t₁ u₂ t₂ h₂)
      exact hhead.trans (hmark.trans (readGroups_reads _ 0 t₂))

theorem readIpAddr_plain : Plain readIpAddr := by
  intro s a rest h
  unfold readIpAddr at h
  split at h
  · next addr t ht =>
      rw [← (Prod.mk.inj (Option.some.inj h)).2]
      exact readIpv4Addr_plain s addr t ht
  · obtain ⟨⟨addr, t⟩, ht, h⟩ := Option.map_eq_some_iff.mp h
    rw [← (Prod.mk.inj h).2]
    exact readIpv6Addr_plain s addr t ht

/-- **An address is written with hexadecimal digits, dots and colons.** -/
theorem addrChar_of_fromStr {s : List Char} {ip : IpAddr} (h : fromStr s = some ip) :
    ∀ c ∈ s, AddrChar c := by
  intro c hc
  unfold fromStr at h
  split at h
  · next a hread =>
      rcases readIpAddr_plain s a [] hread c hc with hnil | haddr
      · exact absurd hnil List.not_mem_nil
      · exact haddr
  · exact absurd h (by simp)

theorem openBracket_not_mem {s : List Char} {ip : IpAddr} (h : fromStr s = some ip) : '[' ∉ s :=
  fun hc => absurd (addrChar_of_fromStr h '[' hc) (by simp [AddrChar, toDigit])

theorem closeBracket_not_mem {s : List Char} {ip : IpAddr} (h : fromStr s = some ip) : ']' ∉ s :=
  fun hc => absurd (addrChar_of_fromStr h ']' hc) (by simp [AddrChar, toDigit])

theorem fromStr_nil : fromStr [] = none := rfl

/-- The octets of `0.0.0.0` are read first, and nothing may follow them. -/
theorem fromStr_anyHost_colon (s : List Char) : fromStr ("0.0.0.0".toList ++ ':' :: s) = none := by
  have hhost : "0.0.0.0".toList = ['0', '.', '0', '.', '0', '.', '0'] := by decide
  have hread : readOctets 4 0 ("0.0.0.0".toList ++ ':' :: s) = some ([0, 0, 0, 0], ':' :: s) := by
    rw [hhost]
    rfl
  rw [fromStr, readIpAddr, readIpv4Addr, hread]
  rfl

end Fproxy.IpAddr
