import Mathlib.Data.List.Basic
import Mathlib.Data.Fintype.Basic

/-!
# The `xepci=` boot argument

`XeParseBootArgs` reads the boot argument into a 128-byte buffer, cuts it
in place at its commas, copies each piece, lower-cased, into a 64-byte
token and compares the token with the four flags it knows.

The buffer is modelled up to its terminating NUL and no further: a
`BootArg` is the characters before that NUL, and `BootArg.mem` the bytes
the parser may touch. Every read and write of the parser is checked
against the bytes it is given – `none` is an access outside them – so
that a parse that returns is one that stayed inside.
-/

/-- The boot flags, `gXeBoot`. -/
structure XeBootFlags where
  /-- Extra logging. -/
  verbose : Bool := false
  /-- No forcewake request is made. -/
  disableForcewake : Bool := false
  /-- The command stream is not used. -/
  disableCommandStream : Bool := false
  /-- Only the sampler registers are to be read. -/
  strictSafe : Bool := false
  deriving DecidableEq, Repr

/-- A property of all flags can be checked: there are sixteen of them. -/
instance {p : XeBootFlags → Prop} [DecidablePred p] : Decidable (∀ g, p g) :=
  decidable_of_iff
    (∀ verbose nofw nocs strict : Bool, p ⟨verbose, nofw, nocs, strict⟩)
    ⟨fun h g => h g.verbose g.disableForcewake g.disableCommandStream g.strictSafe,
      fun h _ _ _ _ => h _⟩

/-- **The content of the boot-argument buffer**: at most 127 characters,
none of them NUL, before the terminating NUL. -/
structure BootArg where
  /-- The characters before the NUL. -/
  chars : List UInt8
  /-- The NUL comes after them. -/
  noNul : 0 ∉ chars
  /-- Characters and NUL fit in the 128 bytes. -/
  fits : chars.length ≤ 127

/-- The bytes of the buffer up to and including the terminating NUL. -/
def BootArg.mem (s : BootArg) : List UInt8 := s.chars ++ [0]

/-- Lower-casing of the ASCII letters, `xe_tolower`. -/
def xeTolower (c : UInt8) : UInt8 :=
  if 65 ≤ c ∧ c ≤ 90 then c + (97 - 65) else c

/-- A write of one byte, inside the given bytes only. -/
def poke (bytes : List UInt8) (i : ℕ) (v : UInt8) : Option (List UInt8) :=
  if i < bytes.length then some (bytes.set i v) else none

/-- `strchr`: the position of the first `c` before a NUL, if there is one.
The first argument is the memory from position `p` on. -/
def strchr (c : UInt8) : List UInt8 → ℕ → Option (Option ℕ)
  | [], _ => none
  | b :: rest, p =>
    if b = c then some (some p)
    else if b = 0 then some none
    else strchr c rest (p + 1)

/-- The loop that moves `p` past blanks and tabs. -/
def skipBlanks : List UInt8 → ℕ → Option ℕ
  | [], _ => none
  | b :: rest, p => if b = 32 ∨ b = 9 then skipBlanks rest (p + 1) else some p

/-- The loop that copies a piece, lower-cased, into the token: it stops at
a NUL and after 63 characters. Both memories are checked. -/
def copyToken : List UInt8 → ℕ → List UInt8 → Option (ℕ × List UInt8)
  | [], _, _ => none
  | b :: rest, i, token =>
    if b ≠ 0 ∧ i < 63 then do
      let token ← poke token i (xeTolower b)
      copyToken rest (i + 1) token
    else some (i, token)

/-- The comma that ends a piece is overwritten with a NUL. -/
def cutAt (mem : List UInt8) : Option ℕ → Option (List UInt8)
  | some q => poke mem q 0
  | none => some mem

/-- The token of the piece at `p`: blanks skipped, the rest copied into a
cleared 64-byte array and terminated. -/
def readToken (mem : List UInt8) (p : ℕ) : Option (List UInt8) := do
  let p ← skipBlanks (mem.drop p) p
  let (i, token) ← copyToken (mem.drop p) 0 (List.replicate 64 0)
  poke token i 0

/-- The C string at the start of a memory. -/
def cstring (bytes : List UInt8) : List UInt8 := bytes.takeWhile (· ≠ 0)

/-- The bytes of an ASCII text. -/
def ascii (text : List Char) : List UInt8 := text.map (fun c => c.toNat.toUInt8)

def tokenVerbose : List UInt8 := ascii ['v', 'e', 'r', 'b', 'o', 's', 'e']
def tokenNoforcewake : List UInt8 :=
  ascii ['n', 'o', 'f', 'o', 'r', 'c', 'e', 'w', 'a', 'k', 'e']
def tokenNocs : List UInt8 := ascii ['n', 'o', 'c', 's']
def tokenStrictsafe : List UInt8 :=
  ascii ['s', 't', 'r', 'i', 'c', 't', 's', 'a', 'f', 'e']

namespace XeBootFlags

/-- What a token does to the flags: the chain of `strcmp`s. -/
def applyToken (g : XeBootFlags) (token : List UInt8) : XeBootFlags :=
  if cstring token = tokenVerbose then { g with verbose := true }
  else if cstring token = tokenNoforcewake then { g with disableForcewake := true }
  else if cstring token = tokenNocs then { g with disableCommandStream := true }
  else if cstring token = tokenStrictsafe then
    { g with strictSafe := true, disableForcewake := true, disableCommandStream := true }
  else g

/-- **The tokenizer loop**, from position `p` of the memory. The fuel
bounds the number of pieces; running out of it is `none`, as is an access
outside the memory. -/
def parseFrom : ℕ → List UInt8 → ℕ → XeBootFlags → Option XeBootFlags
  | 0, _, _, _ => none
  | fuel + 1, mem, p, g => do
    let c ← mem[p]?
    if c = 0 then return g
    else
      let comma ← strchr 44 (mem.drop p) p
      let mem ← cutAt mem comma
      let token ← readToken mem p
      match comma with
      | none => return g.applyToken token
      | some q => parseFrom fuel mem (q + 1) (g.applyToken token)

/-- The flags after parsing a boot argument, from the flags `g`. Each
piece but the last ends at a comma, so one iteration per byte is enough. -/
def parse (s : BootArg) (g : XeBootFlags) : Option XeBootFlags :=
  parseFrom s.mem.length s.mem 0 g

/-! ## Strict mode implies the two other restrictions -/

/-- The flags a strict-safe driver relies on: `strictsafe` comes with
`noforcewake` and `nocs`. -/
def StrictImplied (g : XeBootFlags) : Prop :=
  g.strictSafe = true → g.disableForcewake = true ∧ g.disableCommandStream = true

/-- One token keeps the implication: the only one that sets `strictSafe`
sets the two others with it. -/
theorem strictImplied_applyToken {g : XeBootFlags} (h : g.StrictImplied)
    (token : List UInt8) : (g.applyToken token).StrictImplied := by
  unfold applyToken StrictImplied at *
  split_ifs <;> simp_all

/-- **The parser keeps the implication**, whatever the memory holds. -/
theorem strictImplied_parseFrom (fuel : ℕ) (mem : List UInt8) (p : ℕ)
    {g g' : XeBootFlags} (h : g.StrictImplied)
    (hp : parseFrom fuel mem p g = some g') : g'.StrictImplied := by
  induction fuel generalizing mem p g with
  | zero => exact absurd hp (by simp [parseFrom])
  | succ fuel ih =>
    simp only [parseFrom, Option.bind_eq_bind, Option.bind_eq_some_iff] at hp
    obtain ⟨c, -, hp⟩ := hp
    split at hp
    · cases hp
      exact h
    · simp only [Option.bind_eq_some_iff] at hp
      obtain ⟨comma, -, mem', -, token, -, hp⟩ := hp
      cases comma with
      | none =>
        cases hp
        exact strictImplied_applyToken h token
      | some q => exact ih _ _ (strictImplied_applyToken h token) hp

/-- The flags of a boot argument, from cleared flags, satisfy the
implication. -/
theorem strictImplied_parse {s : BootArg} {g : XeBootFlags}
    (h : parse s {} = some g) : g.StrictImplied :=
  strictImplied_parseFrom _ _ _ (fun hs => absurd hs (by decide)) h

end XeBootFlags
