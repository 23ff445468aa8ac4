import XePCI.Session

/-!
# The grammar of the boot argument

What `XeParseBootArgs` is for can be said without its cursor and its two
buffers: split the argument at every comma, drop the blanks and tabs that
begin a piece, lower-case it, and set the flags that the pieces spell. That
is `XeBootFlags.named`.

The parser does this in place. It overwrites the comma that ends the
current piece, so what lies behind the cursor is spoilt, but nothing before
the next comma is, and the cursor never comes back: the memory from the
cursor on is the rest of the argument and its NUL, and that is the
invariant of the loop (`parseFrom_eq`). A piece that is longer than the
token is cut to 63 characters. The flags are shorter than that, so a cut
piece spells none of them, before the cut or after it
(`applyToken_eq`).

The buffer itself is 128 bytes long, and an argument that is longer is cut
where no comma need be. Then what is parsed is the cut argument: a flag
behind the cut is lost, and a piece that the cut shortens may come to spell
a flag it did not. So nothing is lost or invented exactly if every flag that
is spelled there is spelled by a piece in front as well, and the flags that
the shortened piece comes to spell are spelled anyway (`parse_ofValue_iff`).

Blanks are dropped where a piece begins and kept where it ends. With one
behind it a flag is not recognized, so blanks that are put around the pieces
of an argument change nothing only as long as every flag is still named by a
piece without (`xeParseBootArgs_padded_iff`).
-/

namespace XeBootFlags

/-- The flags of either. -/
def or (g h : XeBootFlags) : XeBootFlags where
  verbose := g.verbose || h.verbose
  disableForcewake := g.disableForcewake || h.disableForcewake
  disableCommandStream := g.disableCommandStream || h.disableCommandStream
  strictSafe := g.strictSafe || h.strictSafe

theorem or_assoc (g h k : XeBootFlags) : (g.or h).or k = g.or (h.or k) := by
  simp only [or, Bool.or_assoc]

@[simp] theorem or_empty (g : XeBootFlags) : g.or {} = g := by
  simp only [or, Bool.or_false]

@[simp] theorem empty_or (g : XeBootFlags) : or {} g = g := by
  simp only [or, Bool.false_or]

theorem or_comm (g h : XeBootFlags) : g.or h = h.or g := by
  simp only [or, Bool.or_comm]

theorem or_self (g : XeBootFlags) : g.or g = g := by
  simp only [or, Bool.or_self]

/-- The flags are ordered by what is set; `or` is their join. -/
instance : Max XeBootFlags := ⟨or⟩

instance : SemilatticeSup XeBootFlags :=
  SemilatticeSup.mk' or_comm or_assoc or_self

instance : OrderBot XeBootFlags where
  bot := {}
  bot_le := empty_or

/-- A blank or a tab. -/
def isBlank (b : UInt8) : Bool := b = 32 ∨ b = 9

/-- A piece without the blanks that begin it, in lower case. -/
def normalize (piece : List UInt8) : List UInt8 := (piece.dropWhile isBlank).map xeTolower

/-- **The pieces of an argument**, between its commas. -/
def pieces (arg : List UInt8) : List (List UInt8) := (arg.splitOn 44).map normalize

/-- **The flags an argument names**: `strictsafe` names three of them. -/
def named (arg : List UInt8) : XeBootFlags where
  verbose := tokenVerbose ∈ pieces arg
  disableForcewake := tokenNoforcewake ∈ pieces arg ∨ tokenStrictsafe ∈ pieces arg
  disableCommandStream := tokenNocs ∈ pieces arg ∨ tokenStrictsafe ∈ pieces arg
  strictSafe := tokenStrictsafe ∈ pieces arg

theorem pieces_append_comma (u v : List UInt8) :
    pieces (u ++ 44 :: v) = pieces u ++ pieces v := by
  unfold pieces
  rw [List.splitOn_append_cons_self, List.map_append]

theorem pieces_of_noComma {piece : List UInt8} (h : 44 ∉ piece) :
    pieces piece = [normalize piece] := by
  unfold pieces
  rw [List.splitOn_eq_singleton h, List.map_singleton]

@[simp] theorem named_nil : named [] = {} := by decide

/-- What is named on either side of a comma is named. -/
theorem named_append_comma (u v : List UInt8) : named (u ++ 44 :: v) = (named u).or (named v) := by
  simp only [named, or, pieces_append_comma, List.mem_append, Bool.decide_or, mk.injEq, true_and,
    and_true]
  constructor <;> ac_rfl

/-! ## What the loops of the parser compute

Each on a memory that begins with a piece and a NUL. -/

section Loops

variable {bs : List UInt8} (h0 : 0 ∉ bs) (rest : List UInt8)

include h0

/-- Without a comma, `strchr` stops at the NUL. -/
theorem strchr_of_noComma (hc : 44 ∉ bs) (p : ℕ) :
    strchr 44 (bs ++ 0 :: rest) p = some none := by
  induction bs generalizing p with
  | nil => rfl
  | cons b bs ih =>
    rw [List.mem_cons, not_or] at h0 hc
    rw [List.cons_append, strchr, if_neg (Ne.symm hc.1), if_neg (Ne.symm h0.1)]
    exact ih h0.2 hc.2 (p + 1)

/-- Otherwise it finds the first one. -/
theorem strchr_of_comma (hc : 44 ∉ bs) (p : ℕ) :
    strchr 44 (bs ++ 44 :: rest) p = some (some (p + bs.length)) := by
  induction bs generalizing p with
  | nil => rfl
  | cons b bs ih =>
    rw [List.mem_cons, not_or] at h0 hc
    rw [List.cons_append, strchr, if_neg (Ne.symm hc.1), if_neg (Ne.symm h0.1),
      ih h0.2 hc.2 (p + 1), List.length_cons, Nat.add_right_comm, Nat.add_assoc]

omit h0 in
/-- The blanks are skipped; the NUL is none. -/
theorem skipBlanks_eq (p : ℕ) :
    skipBlanks (bs ++ 0 :: rest) p = some (p + (bs.takeWhile isBlank).length) := by
  induction bs generalizing p with
  | nil => rfl
  | cons b bs ih =>
    rw [List.cons_append, skipBlanks, List.takeWhile_cons]
    by_cases hb : b = 32 ∨ b = 9
    · rw [if_pos hb, show isBlank b = true from decide_eq_true hb, ih, if_pos rfl,
        List.length_cons, Nat.add_right_comm, Nat.add_assoc]
    · rw [if_neg hb, show isBlank b = false from decide_eq_false hb, if_neg Bool.false_ne_true]
      rfl

/-- The piece is copied behind what the token already holds, up to 63
characters; the rest of the token stays cleared. By induction on the piece. -/
theorem copyToken_eq (done : List UInt8) (hdone : done.length ≤ 63) :
    copyToken (bs ++ 0 :: rest) done.length (done ++ List.replicate (64 - done.length) 0)
      = some ((done ++ (bs.map xeTolower).take (63 - done.length)).length,
          done ++ (bs.map xeTolower).take (63 - done.length)
            ++ List.replicate (64 - (done ++ (bs.map xeTolower).take (63 - done.length)).length)
              0) := by
  induction bs generalizing done with
  | nil =>
    rw [List.nil_append, copyToken, if_neg (fun h => h.1 rfl)]
    simp
  | cons b bs ih =>
    rw [List.mem_cons, not_or] at h0
    rw [List.cons_append, copyToken]
    by_cases hi : done.length < 63
    · have hpoke : poke (done ++ List.replicate (64 - done.length) 0) done.length (xeTolower b)
          = some ((done ++ [xeTolower b]) ++ List.replicate (64 - (done.length + 1)) 0) := by
        have hsucc : 64 - done.length = 64 - (done.length + 1) + 1 := by omega
        unfold poke
        rw [if_pos (by simp; omega), List.set_append_right _ _ (Nat.le_refl _), Nat.sub_self,
          hsucc, List.replicate_succ, List.set_cons_zero, List.append_assoc]
        rfl
      have hlen : (done ++ [xeTolower b]).length = done.length + 1 := List.length_append
      have htake : 63 - done.length = 63 - (done.length + 1) + 1 := by omega
      have hcopied := ih h0.2 (done ++ [xeTolower b]) (by omega)
      rw [if_pos ⟨Ne.symm h0.1, hi⟩, hpoke, Option.bind_eq_bind, Option.bind_some]
      rw [hlen] at hcopied
      rw [hcopied, htake, List.map_cons, List.take_succ_cons]
      simp only [List.append_assoc, List.singleton_append]
    · -- the token is full
      have hfull : 63 - done.length = 0 := by omega
      rw [if_neg (fun h => hi h.2), hfull, List.take_zero, List.append_nil]

end Loops

/-! ## One piece -/

theorem xeTolower_ne_zero {b : UInt8} (hb : b ≠ 0) : xeTolower b ≠ 0 := by
  unfold xeTolower
  split
  · rename_i hupper
    have hlt : b.toNat ≤ 90 := UInt8.le_iff_toNat_le.mp hupper.2
    intro hzero
    have hmod := congrArg UInt8.toNat hzero
    rw [UInt8.toNat_add] at hmod
    have h32 : (97 - 65 : UInt8).toNat = 32 := rfl
    rw [h32, Nat.mod_eq_of_lt (by omega)] at hmod
    exact absurd hmod (by simp)
  · exact hb

theorem zero_notMem_normalize {bs : List UInt8} (h0 : 0 ∉ bs) : 0 ∉ normalize bs := by
  intro hmem
  obtain ⟨b, hb, hzero⟩ := List.mem_map.mp hmem
  refine xeTolower_ne_zero (fun hb0 => h0 ?_) hzero
  exact hb0 ▸ (List.dropWhile_suffix isBlank).subset hb

/-- A cleared array that begins with a text holds that text. -/
theorem cstring_append_replicate {bs : List UInt8} (h0 : 0 ∉ bs) (n : ℕ) :
    cstring (bs ++ List.replicate (n + 1) 0) = bs := by
  unfold cstring
  rw [List.takeWhile_append_of_pos, List.replicate_succ, List.takeWhile_cons]
  · simp
  · intro b hb
    exact decide_eq_true fun hzero => h0 (hzero ▸ hb)

/-- The terminating NUL is written where the token is cleared already. -/
theorem poke_end {bs : List UInt8} (h : bs.length ≤ 63) :
    poke (bs ++ List.replicate (64 - bs.length) 0) bs.length 0
      = some (bs ++ List.replicate (63 - bs.length + 1) 0) := by
  have hsucc : 64 - bs.length = 63 - bs.length + 1 := by omega
  unfold poke
  rw [hsucc, if_pos (by simp), List.set_append_right _ _ (Nat.le_refl _), Nat.sub_self,
    List.replicate_succ, List.set_cons_zero]

/-- **The token of a piece** is the piece, normalized and cut to 63
characters. The memory is read up to the NUL, and the token is written
within its 64 bytes. -/
theorem readToken_eq {bs : List UInt8} (h0 : 0 ∉ bs) {mem rest : List UInt8} {p : ℕ}
    (hmem : mem.drop p = bs ++ 0 :: rest) :
    ∃ token, readToken mem p = some token ∧ cstring token = (normalize bs).take 63 := by
  have hblanks : mem.drop (p + (bs.takeWhile isBlank).length)
      = bs.dropWhile isBlank ++ 0 :: rest := by
    have hsplit : bs ++ 0 :: rest
        = bs.takeWhile isBlank ++ (bs.dropWhile isBlank ++ 0 :: rest) := by
      rw [← List.append_assoc, List.takeWhile_append_dropWhile]
    rw [← List.drop_drop, hmem, hsplit, List.drop_left]
  have h0' : 0 ∉ bs.dropWhile isBlank := fun h => h0 ((List.dropWhile_suffix isBlank).subset h)
  have hcopy := copyToken_eq h0' rest [] (Nat.zero_le 63)
  simp only [List.length_nil, Nat.sub_zero, List.nil_append] at hcopy
  have hnul : 0 ∉ (normalize bs).take 63 := fun h =>
    zero_notMem_normalize h0 (List.mem_of_mem_take h)
  refine ⟨(normalize bs).take 63 ++ List.replicate (63 - ((normalize bs).take 63).length + 1) 0,
    ?_, cstring_append_replicate hnul _⟩
  unfold readToken
  rw [hmem, skipBlanks_eq, Option.bind_eq_bind, Option.bind_some, hblanks, hcopy,
    Option.bind_eq_bind, Option.bind_some]
  exact poke_end (List.length_take_le 63 _)

/-- **A token sets what its piece names.** A flag is shorter than 63
characters, so a piece spells it exactly if the piece cut to 63 does. -/
theorem applyToken_eq {bs token : List UInt8} (hc : 44 ∉ bs)
    (htoken : cstring token = (normalize bs).take 63) (g : XeBootFlags) :
    g.applyToken token = g.or (named bs) := by
  have hspells : ∀ flag : List UInt8, flag.length < 63 →
      (cstring token = flag ↔ normalize bs = flag) := by
    intro flag hflag
    rw [htoken]
    constructor
    · intro h
      have hlen := congrArg List.length h
      rw [List.length_take] at hlen
      rwa [List.take_of_length_le (by omega)] at h
    · rintro rfl
      exact List.take_of_length_le (by omega)
  have hverbose := hspells tokenVerbose (by decide)
  have hnofw := hspells tokenNoforcewake (by decide)
  have hnocs := hspells tokenNocs (by decide)
  have hstrict := hspells tokenStrictsafe (by decide)
  unfold applyToken named
  simp only [pieces_of_noComma hc, List.mem_singleton, hverbose, hnofw, hnocs, hstrict,
    eq_comm (b := normalize bs)]
  generalize normalize bs = word
  revert g
  -- the flags are distinct words, so at most one test of the chain succeeds
  split
  · rename_i h
    rw [h]
    decide
  split
  · rename_i h
    rw [h]
    decide
  split
  · rename_i h
    rw [h]
    decide
  split
  · rename_i h
    rw [h]
    decide
  · rename_i h₁ h₂ h₃ h₄
    intro g
    simp [or, h₁, h₂, h₃, h₄]

/-! ## The whole argument -/

/-- The last iteration: what is left is one piece. -/
theorem parseFrom_last {piece : List UInt8} (h0 : 0 ∉ piece) (hc : 44 ∉ piece) (fuel : ℕ)
    (pre : List UInt8) (g : XeBootFlags) :
    parseFrom (fuel + 1) (pre ++ (piece ++ [0])) pre.length g = some (g.or (named piece)) := by
  have hdrop : (pre ++ (piece ++ [0])).drop pre.length = piece ++ [0] := List.drop_left
  have hcursor : (pre ++ (piece ++ [0]))[pre.length]? = (piece ++ [0])[0]? := by
    rw [List.getElem?_append_right (Nat.le_refl _), Nat.sub_self]
  obtain ⟨token, htoken, hword⟩ := readToken_eq h0 hdrop
  rw [parseFrom, hcursor, hdrop]
  cases piece with
  | nil => simp
  | cons b piece =>
    have hb : b ≠ 0 := fun h => h0 (h ▸ List.mem_cons_self)
    rw [List.cons_append, List.getElem?_cons_zero, Option.bind_eq_bind, Option.bind_some,
      if_neg hb, ← List.cons_append, strchr_of_noComma h0 _ hc, Option.bind_eq_bind,
      Option.bind_some]
    show (readToken _ _).bind _ = _
    rw [htoken, Option.bind_some]
    exact congrArg some (applyToken_eq hc hword g)

/-- Every other iteration: the piece is cut off at its comma, and the cursor
moves behind it. -/
theorem parseFrom_comma {piece : List UInt8} (h0 : 0 ∉ piece) (hc : 44 ∉ piece) (fuel : ℕ)
    (pre rest : List UInt8) (g : XeBootFlags) :
    parseFrom (fuel + 1) (pre ++ (piece ++ 44 :: rest)) pre.length g
      = parseFrom fuel (pre ++ piece ++ [0] ++ rest) (pre ++ piece ++ [0]).length
          (g.or (named piece)) := by
  have hdrop : (pre ++ (piece ++ 44 :: rest)).drop pre.length = piece ++ 44 :: rest :=
    List.drop_left
  have hcursor : ∃ b ≠ 0, (pre ++ (piece ++ 44 :: rest))[pre.length]? = some b := by
    rw [List.getElem?_append_right (Nat.le_refl _), Nat.sub_self]
    cases piece with
    | nil => exact ⟨44, by decide, rfl⟩
    | cons b piece => exact ⟨b, fun h => h0 (h ▸ List.mem_cons_self), rfl⟩
  have hcut : cutAt (pre ++ (piece ++ 44 :: rest)) (some (pre.length + piece.length))
      = some (pre ++ piece ++ [0] ++ rest) := by
    show poke _ _ _ = _
    unfold poke
    rw [if_pos (by simp), List.set_append_right _ _ (by omega), Nat.add_sub_cancel_left,
      List.set_append_right _ _ (Nat.le_refl _), Nat.sub_self, List.set_cons_zero]
    simp
  obtain ⟨b, hb, hget⟩ := hcursor
  have hrest : (pre ++ piece ++ [0] ++ rest).drop pre.length = piece ++ 0 :: rest := by
    rw [List.append_assoc, List.append_assoc, List.drop_left, List.singleton_append]
  obtain ⟨token, htoken, hword⟩ := readToken_eq h0 hrest
  have hnext : pre.length + piece.length + 1 = (pre ++ piece ++ [0]).length := by
    simp only [List.length_append, List.length_singleton]
  rw [parseFrom, hget, Option.bind_eq_bind, Option.bind_some, if_neg hb, hdrop,
    strchr_of_comma h0 _ hc, Option.bind_eq_bind, Option.bind_some, hcut, Option.bind_eq_bind,
    Option.bind_some, htoken, Option.bind_some]
  show parseFrom fuel _ (pre.length + piece.length + 1) _ = _
  rw [hnext, applyToken_eq hc hword]

/-- **The loop parses what is left.** The memory before the cursor is
whatever earlier iterations have made of it; from the cursor on it is the
rest of the argument and its NUL. By induction on the fuel, one piece at a
time. -/
theorem parseFrom_eq {rest : List UInt8} (h0 : 0 ∉ rest) {fuel : ℕ} (hfuel : rest.length < fuel)
    (pre : List UInt8) (g : XeBootFlags) :
    parseFrom fuel (pre ++ (rest ++ [0])) pre.length g = some (g.or (named rest)) := by
  induction fuel generalizing rest pre g with
  | zero => exact absurd hfuel (Nat.not_lt_zero _)
  | succ fuel ih =>
    by_cases hc : 44 ∈ rest
    · obtain ⟨piece, rest, rfl, hpiece⟩ := List.eq_append_cons_of_mem hc
      rw [List.mem_append, List.mem_cons, not_or, not_or] at h0
      rw [List.length_append, List.length_cons] at hfuel
      rw [List.append_assoc, List.cons_append, parseFrom_comma h0.1 hpiece,
        ih h0.2.2 (by omega), named_append_comma, or_assoc]
    · exact parseFrom_last h0 hc fuel pre g

theorem parse_eq (s : BootArg) (g : XeBootFlags) : g.parse s = some (g.or (named s.chars)) :=
  parseFrom_eq s.noNul (by simp [BootArg.mem]) [] g

/-- What `XeParseBootArgs` does to the driver's flags. -/
theorem run_xeParseBootArgs_some (P : Platform) (s : BootArg) (m : Machine) :
    (XeService.xeParseBootArgs.run (exec { P with bootArg := some s }) m).2
      = { m with gXeBoot := m.gXeBoot.or (named s.chars) } := by
  rw [run_xeParseBootArgs]
  show { m with gXeBoot := (m.gXeBoot.parse s).getD m.gXeBoot } = _
  rw [parse_eq, Option.getD_some]

/-- **The parser implements its grammar.** For every content of the buffer
and all flags to begin with, it terminates without leaving the buffer or
the token, and the flags are those there were and those the content names;
so the driver's flags are after `XeParseBootArgs`. -/
theorem parse_eq_or_named (s : BootArg) (g : XeBootFlags) :
    g.parse s = some (g.or (named s.chars))
      ∧ ∀ (P : Platform) (m : Machine),
        (XeService.xeParseBootArgs.run (exec { P with bootArg := some s })
          { m with gXeBoot := g }).2 = { m with gXeBoot := g.or (named s.chars) } :=
  ⟨parse_eq s g, fun P m => run_xeParseBootArgs_some P s { m with gXeBoot := g }⟩

end XeBootFlags

/-! ## Arguments that do not fit the buffer -/

/-- The buffer of a value, as `PE_parse_boot_argn` fills it: the first 127
characters, and a NUL. -/
def BootArg.ofValue (v : List UInt8) (hv : 0 ∉ v) : BootArg where
  chars := v.take 127
  noNul := fun h => hv (List.mem_of_mem_take h)
  fits := List.length_take_le 127 v

/-- The four flags. -/
inductive BootFlag where
  | verbose
  | disableForcewake
  | disableCommandStream
  | strictSafe
  deriving DecidableEq

/-- What holds of every flag can be checked. -/
instance {Q : BootFlag → Prop} [DecidablePred Q] : Decidable (∀ f, Q f) :=
  decidable_of_iff (Q .verbose ∧ Q .disableForcewake ∧ Q .disableCommandStream ∧ Q .strictSafe)
    ⟨fun ⟨hv, hf, hc, hs⟩ f => by cases f <;> assumption, fun h => ⟨h _, h _, h _, h _⟩⟩

/-- The words that set a flag. -/
def BootFlag.words : BootFlag → List (List UInt8)
  | verbose => [tokenVerbose]
  | disableForcewake => [tokenNoforcewake, tokenStrictsafe]
  | disableCommandStream => [tokenNocs, tokenStrictsafe]
  | strictSafe => [tokenStrictsafe]

namespace XeBootFlags

/-- Whether a flag is set. -/
def isSet (g : XeBootFlags) : BootFlag → Bool
  | .verbose => g.verbose
  | .disableForcewake => g.disableForcewake
  | .disableCommandStream => g.disableCommandStream
  | .strictSafe => g.strictSafe

theorem ext_isSet {g h : XeBootFlags} (hgh : ∀ f, g.isSet f = h.isSet f) : g = h := by
  obtain ⟨a, b, c, d⟩ := g
  rw [mk.injEq]
  exact ⟨hgh .verbose, hgh .disableForcewake, hgh .disableCommandStream, hgh .strictSafe⟩

/-- A piece spells a flag: it is one of the words that set it, but for its case
and the blanks that begin it. -/
def Spells (piece : List UInt8) (f : BootFlag) : Prop := normalize piece ∈ f.words

instance (piece : List UInt8) (f : BootFlag) : Decidable (Spells piece f) :=
  inferInstanceAs (Decidable (_ ∈ _))

/-- **The flags that are named** are those that a piece spells. -/
theorem isSet_named {v : List UInt8} {f : BootFlag} :
    (named v).isSet f = true ↔ ∃ p ∈ v.splitOn 44, Spells p f := by
  have hmem (word : List UInt8) : word ∈ pieces v ↔ ∃ p ∈ v.splitOn 44, normalize p = word :=
    List.mem_map
  cases f <;>
    simp only [isSet, named, decide_eq_true_eq, hmem, Spells, BootFlag.words, List.mem_cons,
      List.not_mem_nil, or_false, and_or_left, exists_or]

/-! ## Where the pieces are -/

/-- The pieces, each with the place where it begins: one comma after the end
of the piece before it. -/
def place : ℕ → List (List UInt8) → List (ℕ × List UInt8)
  | _, [] => []
  | i, p :: ps => (i, p) :: place (i + p.length + 1) ps

/-- **The pieces of a value and their places.** -/
def placed (v : List UInt8) : List (ℕ × List UInt8) := place 0 (v.splitOn 44)

/-- The pieces that the buffer holds in full. -/
def heldPieces (v : List UInt8) : List (List UInt8) :=
  ((placed v).filter fun x => x.1 + x.2.length ≤ 127).map Prod.snd

/-- The pieces that it does not: the one that its end cuts, and those behind
it. -/
def lostPieces (v : List UInt8) : List (List UInt8) :=
  ((placed v).filter fun x => 127 < x.1 + x.2.length).map Prod.snd

/-- What the buffer holds of the piece that its end cuts, if there is one. -/
def fragments (v : List UInt8) : List (List UInt8) :=
  ((placed v).filter fun x => x.1 ≤ 127 ∧ 127 < x.1 + x.2.length).map
    fun x => x.2.take (127 - x.1)

theorem map_snd_place (k : ℕ) (ps : List (List UInt8)) : (place k ps).map Prod.snd = ps := by
  induction ps generalizing k with
  | nil => rfl
  | cons p ps ih => exact congrArg (p :: ·) (ih _)

theorem mem_place {i k : ℕ} {p : List UInt8} {ps : List (List UInt8)} :
    (i, p) ∈ place k ps ↔ ∃ j, (j, p) ∈ place 0 ps ∧ i = k + j := by
  induction ps generalizing i k with
  | nil => simp [place]
  | cons q ps ih =>
    simp only [place, List.mem_cons, Prod.mk.injEq]
    rw [ih]
    constructor
    · rintro (⟨rfl, rfl⟩ | ⟨j, hj, rfl⟩)
      · exact ⟨0, Or.inl ⟨rfl, rfl⟩, rfl⟩
      · refine ⟨0 + q.length + 1 + j, Or.inr (ih.mpr ⟨j, hj, rfl⟩), by omega⟩
    · rintro ⟨j, ⟨rfl, rfl⟩ | hj, rfl⟩
      · exact Or.inl ⟨rfl, rfl⟩
      · obtain ⟨j', hj', rfl⟩ := ih.mp hj
        exact Or.inr ⟨j', hj', by omega⟩

theorem mem_placed_of_noComma {v p : List UInt8} (hc : 44 ∉ v) {i : ℕ} :
    (i, p) ∈ placed v ↔ i = 0 ∧ p = v := by
  simp [placed, List.splitOn_eq_singleton hc, place]

theorem mem_placed_append {first rest p : List UInt8} (hc : 44 ∉ first) {i : ℕ} :
    (i, p) ∈ placed (first ++ 44 :: rest)
      ↔ i = 0 ∧ p = first ∨ ∃ j, (j, p) ∈ placed rest ∧ i = first.length + 1 + j := by
  unfold placed
  rw [List.splitOn_append_cons_self, List.splitOn_eq_singleton hc, List.singleton_append, place,
    List.mem_cons, Prod.mk.injEq, mem_place, Nat.zero_add]

/-- **The pieces of a value that is cut after `n` characters**: what is left of
each piece that begins by then. By induction on the pieces. -/
theorem mem_splitOn_take {v q : List UInt8} {n : ℕ} :
    q ∈ (v.take n).splitOn 44 ↔ ∃ i p, (i, p) ∈ placed v ∧ i ≤ n ∧ q = p.take (n - i) := by
  induction hlen : v.length using Nat.strong_induction_on generalizing v n with
  | _ len ih =>
    by_cases hc : 44 ∈ v
    · obtain ⟨first, rest, rfl, hfirst⟩ := List.eq_append_cons_of_mem hc
      simp only [mem_placed_append hfirst]
      by_cases hn : n ≤ first.length
      · -- the cut is in the first piece, or right behind it
        have hc' : 44 ∉ first.take n := fun h => hfirst (List.mem_of_mem_take h)
        rw [List.take_append_of_le_length hn, List.splitOn_eq_singleton hc', List.mem_singleton]
        constructor
        · rintro rfl
          exact ⟨0, first, Or.inl ⟨rfl, rfl⟩, Nat.zero_le n, rfl⟩
        · rintro ⟨i, p, ⟨rfl, rfl⟩ | ⟨j, -, rfl⟩, hle, rfl⟩
          · rfl
          · omega
      · -- the first piece is held, and the rest is cut
        obtain ⟨k, rfl⟩ : ∃ k, n = first.length + 1 + k := ⟨n - (first.length + 1), by omega⟩
        have htake : (first ++ 44 :: rest).take (first.length + 1 + k)
            = first ++ 44 :: rest.take k := by
          rw [List.take_append, List.take_of_length_le (by omega),
            show first.length + 1 + k - first.length = k + 1 by omega, List.take_succ_cons]
        have hheld : first.take (first.length + 1 + k) = first := List.take_of_length_le (by omega)
        have hih := ih rest.length (by rw [← hlen]; simp; omega) (v := rest) (n := k) rfl
        rw [htake, List.splitOn_append_cons_self, List.splitOn_eq_singleton hfirst,
          List.singleton_append, List.mem_cons, hih]
        constructor
        · rintro (rfl | ⟨j, p, hj, hle, rfl⟩)
          · exact ⟨0, q, Or.inl ⟨rfl, rfl⟩, Nat.zero_le _, hheld.symm⟩
          · refine ⟨_, p, Or.inr ⟨j, hj, rfl⟩, Nat.add_le_add_left hle _, ?_⟩
            rw [Nat.add_sub_add_left]
        · rintro ⟨i, p, ⟨rfl, rfl⟩ | ⟨j, hj, rfl⟩, hle, rfl⟩
          · exact Or.inl hheld
          · rw [Nat.add_sub_add_left]
            exact Or.inr ⟨j, p, hj, Nat.le_of_add_le_add_left hle, rfl⟩
    · have hc' : 44 ∉ v.take n := fun h => hc (List.mem_of_mem_take h)
      rw [List.splitOn_eq_singleton hc', List.mem_singleton]
      simp only [mem_placed_of_noComma hc]
      constructor
      · rintro rfl
        exact ⟨0, v, ⟨rfl, rfl⟩, Nat.zero_le n, rfl⟩
      · rintro ⟨i, p, ⟨rfl, rfl⟩, -, rfl⟩
        rfl

/-- **The buffer's pieces** are the held ones and the fragment. -/
theorem mem_splitOn_take_iff {v q : List UInt8} :
    q ∈ (v.take 127).splitOn 44 ↔ q ∈ heldPieces v ++ fragments v := by
  rw [mem_splitOn_take, List.mem_append, heldPieces, fragments]
  simp only [List.mem_map, List.mem_filter, decide_eq_true_eq, Prod.exists, exists_eq_right]
  constructor
  · rintro ⟨i, p, hp, hle, rfl⟩
    by_cases hheld : i + p.length ≤ 127
    · rw [List.take_of_length_le (by omega)]
      exact Or.inl ⟨i, hp, hheld⟩
    · exact Or.inr ⟨i, p, ⟨hp, hle, Nat.lt_of_not_le hheld⟩, rfl⟩
  · rintro (⟨i, hp, hheld⟩ | ⟨i, p, ⟨hp, hle, -⟩, rfl⟩)
    · exact ⟨i, q, hp, by omega, (List.take_of_length_le (by omega)).symm⟩
    · exact ⟨i, p, hp, hle, rfl⟩

/-- Every piece is held or lost. -/
theorem mem_splitOn_iff {v p : List UInt8} :
    p ∈ v.splitOn 44 ↔ p ∈ heldPieces v ∨ p ∈ lostPieces v := by
  rw [← map_snd_place 0 (v.splitOn 44), heldPieces, lostPieces]
  simp only [List.mem_map, List.mem_filter, decide_eq_true_eq, Prod.exists, exists_eq_right,
    ← exists_or, ← and_or_left]
  refine exists_congr fun i => (and_iff_left ?_).symm
  omega

/-- **When a value of any length is parsed as it stands**: if it fits the
buffer, and otherwise exactly if every flag that is spelled by the piece the
buffer's end cuts, or by a later one, is spelled by a piece or a fragment that
the buffer holds, and every flag that the fragment spells is spelled by a
piece. -/
theorem parse_ofValue_iff (v : List UInt8) (hv : 0 ∉ v) :
    ((∀ g : XeBootFlags, g.parse (.ofValue v hv) = some (g.or (named v)))
        ↔ v.length ≤ 127
          ∨ (∀ f, ∀ p ∈ lostPieces v, Spells p f → ∃ q ∈ heldPieces v ++ fragments v, Spells q f)
            ∧ ∀ f, ∀ q ∈ fragments v, Spells q f → ∃ p ∈ v.splitOn 44, Spells p f)
      ∧ (v.length ≤ 127 → ∀ g : XeBootFlags, g.parse (.ofValue v hv) = some (g.or (named v))) := by
  have hparse : ∀ g : XeBootFlags,
      g.parse (.ofValue v hv) = some (g.or (named (v.take 127))) := fun g => parse_eq _ g
  have hfits (hlen : v.length ≤ 127) (g : XeBootFlags) :
      g.parse (.ofValue v hv) = some (g.or (named v)) := by
    rw [hparse, List.take_of_length_le hlen]
  refine ⟨⟨fun h => Or.inr ?_, ?_⟩, hfits⟩
  · have hempty := (hparse {}).symm.trans (h {})
    rw [empty_or, empty_or, Option.some_inj] at hempty
    refine ⟨fun f p hp hf => ?_, fun f q hq hf => ?_⟩
    · have hset : (named v).isSet f = true :=
        isSet_named.mpr ⟨p, mem_splitOn_iff.mpr (Or.inr hp), hf⟩
      rw [← hempty, isSet_named] at hset
      exact hset.imp fun q hq => ⟨mem_splitOn_take_iff.mp hq.1, hq.2⟩
    · have hset : (named (v.take 127)).isSet f = true :=
        isSet_named.mpr ⟨q, mem_splitOn_take_iff.mpr (List.mem_append_right _ hq), hf⟩
      rw [hempty] at hset
      exact isSet_named.mp hset
  · rintro (hlen | ⟨hlost, hfragment⟩)
    · exact hfits hlen
    · intro g
      refine (hparse g).trans (congrArg (some ∘ g.or) (ext_isSet fun f => ?_))
      rw [Bool.eq_iff_iff, isSet_named, isSet_named]
      constructor
      · rintro ⟨q, hq, hf⟩
        rcases List.mem_append.mp (mem_splitOn_take_iff.mp hq) with hheld | hcut
        · exact ⟨q, mem_splitOn_iff.mpr (Or.inl hheld), hf⟩
        · exact hfragment f q hcut hf
      · rintro ⟨p, hp, hf⟩
        rcases mem_splitOn_iff.mp hp with hheld | hlost'
        · exact ⟨p, mem_splitOn_take_iff.mpr (List.mem_append_left _ hheld), hf⟩
        · obtain ⟨q, hq, hf'⟩ := hlost f p hlost' hf
          exact ⟨q, mem_splitOn_take_iff.mpr hq, hf'⟩

/-- `strictsafe` with a long piece behind it. -/
def nearStrictsafe : List UInt8 := tokenStrictsafe ++ 44 :: List.replicate 130 97

/-- `strictsafe` alone is parsed as it stands, and so it is with a long piece
behind it. -/
theorem parse_ofValue_iff_strictsafe :
    (0 ∉ tokenStrictsafe ∧ tokenStrictsafe.length ≤ 127
        ∧ ∀ g : XeBootFlags, g.parse (.ofValue tokenStrictsafe (by decide))
          = some (g.or (named tokenStrictsafe)))
      ∧ ∃ hv, ∀ g : XeBootFlags,
        g.parse (.ofValue nearStrictsafe hv) = some (g.or (named nearStrictsafe)) :=
  ⟨⟨by decide, by decide, (parse_ofValue_iff tokenStrictsafe (by decide)).2 (by decide)⟩,
    by decide, (parse_ofValue_iff nearStrictsafe (by decide)).1.mpr (Or.inr (by decide +kernel))⟩

/-- The value of a `strictsafe` behind a piece of 126 characters. -/
def farStrictsafe : List UInt8 := List.replicate 126 97 ++ 44 :: tokenStrictsafe

/-- The value of a `verbosely` behind a piece of 119 characters. -/
def cutVerbosely : List UInt8 :=
  List.replicate 119 97 ++ 44 :: (tokenVerbose ++ ascii ['l', 'y'])

/-- **A `strictsafe` behind the buffer's end is lost, and a `verbosely`
across it is taken for `verbose`.** -/
theorem long_value_misparsed :
    (∃ hv, ¬∀ g : XeBootFlags,
        g.parse (.ofValue farStrictsafe hv) = some (g.or (named farStrictsafe)))
      ∧ ∃ hv, ¬∀ g : XeBootFlags,
        g.parse (.ofValue cutVerbosely hv) = some (g.or (named cutVerbosely)) := by
  refine ⟨⟨by decide, fun h => ?_⟩, ⟨by decide, fun h => ?_⟩⟩
  · have hlost := (parse_eq _ {}).symm.trans (h {})
    exact absurd hlost (by decide)
  · have hinvented := (parse_eq _ {}).symm.trans (h {})
    exact absurd hinvented (by decide)

end XeBootFlags

/-! ## Blanks around a piece -/

namespace XeBootFlags

/-- A piece that gets blanks before and behind it. -/
structure PaddedPiece where
  before : List UInt8
  piece : List UInt8
  behind : List UInt8
  blank_before : ∀ b ∈ before, isBlank b = true
  blank_behind : ∀ b ∈ behind, isBlank b = true

/-- The piece with its blanks. -/
def PaddedPiece.text (p : PaddedPiece) : List UInt8 := p.before ++ p.piece ++ p.behind

/-- **The argument with the blanks inserted.** -/
def padded (ps : List PaddedPiece) : List UInt8 := [44].intercalate (ps.map PaddedPiece.text)

/-- The pieces that get no blanks behind them, as an argument. -/
def openEnded (ps : List PaddedPiece) : List UInt8 :=
  [44].intercalate ((ps.filter (·.behind = [])).map PaddedPiece.piece)

/-- A piece between two commas has none. -/
theorem comma_notMem_of_mem_splitOn {arg piece : List UInt8} (h : piece ∈ arg.splitOn 44) :
    44 ∉ piece := by
  induction hn : arg.length using Nat.strong_induction_on generalizing arg with
  | _ n ih =>
    by_cases hc : 44 ∈ arg
    · obtain ⟨first, rest, rfl, hfirst⟩ := List.eq_append_cons_of_mem hc
      rw [List.splitOn_append_cons_self, List.splitOn_eq_singleton hfirst, List.mem_append,
        List.mem_singleton] at h
      rcases h with rfl | h
      · exact hfirst
      · refine ih rest.length ?_ h rfl
        rw [← hn, List.length_append, List.length_cons]
        omega
    · rw [List.splitOn_eq_singleton hc, List.mem_singleton] at h
      exact h ▸ hc

/-- **An argument names what its pieces name**, and nothing else. -/
theorem named_intercalate_le_iff {pieces : List (List UInt8)} {g : XeBootFlags} :
    named ([44].intercalate pieces) ≤ g ↔ ∀ piece ∈ pieces, named piece ≤ g := by
  induction pieces with
  | nil => exact iff_of_true (named_nil ▸ bot_le) (List.forall_mem_nil _)
  | cons piece pieces ih =>
    cases pieces with
    | nil => simp
    | cons piece' pieces =>
      rw [List.intercalate_cons_cons, List.append_assoc, List.singleton_append,
        named_append_comma, List.forall_mem_cons, ← ih]
      exact sup_le_iff

/-- What a piece names depends on what it is once normalized. -/
theorem named_congr {u v : List UInt8} (hu : 44 ∉ u) (hv : 44 ∉ v)
    (h : normalize u = normalize v) : named u = named v := by
  unfold named
  rw [pieces_of_noComma hu, pieces_of_noComma hv, h]

namespace PaddedPiece

variable {p : PaddedPiece}

theorem comma_notMem_text (hc : 44 ∉ p.piece) : 44 ∉ p.text := by
  have hblank : ¬isBlank 44 = true := by decide
  intro hmem
  rcases List.mem_append.mp hmem with hmem | hmem
  · rcases List.mem_append.mp hmem with hmem | hmem
    · exact hblank (p.blank_before _ hmem)
    · exact hc hmem
  · exact hblank (p.blank_behind _ hmem)

/-- Blanks before a piece are dropped. -/
theorem named_text_of_openEnded (hc : 44 ∉ p.piece) (h : p.behind = []) :
    named p.text = named p.piece := by
  refine named_congr (comma_notMem_text hc) hc ?_
  unfold text normalize
  rw [h, List.append_nil, List.dropWhile_append_of_pos p.blank_before]

/-- Blanks behind a piece are kept: it is nothing, or it ends with one. -/
theorem normalize_text (h : p.behind ≠ []) :
    normalize p.text = [] ∨ ∃ b ∈ normalize p.text, isBlank b = true := by
  have hlower : ∀ b : UInt8, isBlank b = true → isBlank (xeTolower b) = true := by
    intro b hb
    rcases of_decide_eq_true hb with rfl | rfl <;> rfl
  unfold normalize
  by_cases hnil : p.text.dropWhile isBlank = []
  · rw [hnil]
    exact Or.inl rfl
  · -- what is left of the text ends as the text does
    have hlast : (p.text.dropWhile isBlank).getLast hnil = p.behind.getLast h :=
      ((List.dropWhile_suffix isBlank).getLast hnil).trans (List.getLast_append_of_ne_nil _ h)
    refine Or.inr ⟨xeTolower (p.behind.getLast h), ?_, hlower _ (p.blank_behind _ ?_)⟩
    · rw [← hlast]
      exact List.mem_map_of_mem (List.getLast_mem hnil)
    · exact List.getLast_mem h

/-- **So a piece with blanks behind it names no flag**: no flag is spelled
with one. -/
theorem named_text_of_behind (hc : 44 ∉ p.piece) (h : p.behind ≠ []) : named p.text = ⊥ := by
  have hspells : ∀ flag : List UInt8, flag ≠ [] → flag.any isBlank = false →
      ¬flag = normalize p.text := by
    rintro flag hne hblank rfl
    rcases normalize_text h with hnil | ⟨b, hmem, hb⟩
    · exact hne hnil
    · exact absurd hb (List.any_eq_false.mp hblank b hmem)
  have hverbose := hspells tokenVerbose (by decide) (by decide)
  have hnofw := hspells tokenNoforcewake (by decide) (by decide)
  have hnocs := hspells tokenNocs (by decide) (by decide)
  have hstrict := hspells tokenStrictsafe (by decide) (by decide)
  unfold named
  simp only [pieces_of_noComma (comma_notMem_text hc), List.mem_singleton, hverbose, hnofw, hnocs,
    hstrict, decide_false]
  rfl

end PaddedPiece

/-- **What an argument names with the blanks inserted**: what its pieces name
that get none behind them. -/
theorem named_padded {ps : List PaddedPiece} (hc : ∀ p ∈ ps, 44 ∉ p.piece) :
    named (padded ps) = named (openEnded ps) := by
  refine eq_of_forall_ge_iff fun g => ?_
  unfold padded openEnded
  rw [named_intercalate_le_iff, named_intercalate_le_iff, List.forall_mem_map,
    List.forall_mem_map]
  constructor
  · intro h p hp
    obtain ⟨hmem, hopen⟩ := List.mem_filter.mp hp
    rw [← PaddedPiece.named_text_of_openEnded (hc p hmem) (of_decide_eq_true hopen)]
    exact h p hmem
  · intro h p hp
    by_cases hopen : p.behind = []
    · rw [PaddedPiece.named_text_of_openEnded (hc p hp) hopen]
      exact h p (List.mem_filter.mpr ⟨hp, decide_eq_true hopen⟩)
    · rw [PaddedPiece.named_text_of_behind (hc p hp) hopen]
      exact bot_le

/-- Two arguments set the same flags, whichever there were, exactly if they
name the same. -/
theorem run_xeParseBootArgs_eq_iff {s s' : BootArg} :
    (∀ (P : Platform) (m : Machine),
        (XeService.xeParseBootArgs.run (exec { P with bootArg := some s' }) m).2
          = (XeService.xeParseBootArgs.run (exec { P with bootArg := some s }) m).2)
      ↔ named s'.chars = named s.chars := by
  constructor
  · intro h
    have hflags := congrArg Machine.gXeBoot (h .ideal .fresh)
    rw [run_xeParseBootArgs_some, run_xeParseBootArgs_some] at hflags
    exact (empty_or _).symm.trans (hflags.trans (empty_or _))
  · intro h P m
    rw [run_xeParseBootArgs_some, run_xeParseBootArgs_some, h]

/-- **Blanks around the pieces.** Let blanks and tabs be inserted before and
behind the pieces of an argument, so that it still fits the buffer. The
flags are set as before exactly if every flag that is named by a piece with
blanks behind it is named by a piece without. Blanks before a piece never
matter. -/
theorem xeParseBootArgs_padded_iff (s s' : BootArg) (ps : List PaddedPiece)
    (hs : ps.map PaddedPiece.piece = s.chars.splitOn 44) (hs' : s'.chars = padded ps) :
    (∀ (P : Platform) (m : Machine),
        (XeService.xeParseBootArgs.run (exec { P with bootArg := some s' }) m).2
          = (XeService.xeParseBootArgs.run (exec { P with bootArg := some s }) m).2)
      ↔ ∀ p ∈ ps, p.behind ≠ [] → named p.piece ≤ named (openEnded ps) := by
  have hc : ∀ p ∈ ps, 44 ∉ p.piece := fun p hp =>
    comma_notMem_of_mem_splitOn (hs ▸ List.mem_map_of_mem hp)
  have hchars : s.chars = [44].intercalate (ps.map PaddedPiece.piece) := by
    rw [hs, List.intercalate_splitOn]
  have hopen : ∀ p ∈ ps, p.behind = [] → named p.piece ≤ named (openEnded ps) :=
    fun p hp hb => named_intercalate_le_iff.mp le_rfl _
      (List.mem_map_of_mem (List.mem_filter.mpr ⟨hp, decide_eq_true hb⟩))
  -- the blanks set no flag, so what is asked is whether they lose one
  have hsub : named (openEnded ps) ≤ named s.chars := by
    rw [openEnded, named_intercalate_le_iff, List.forall_mem_map, hchars]
    exact fun p hp => named_intercalate_le_iff.mp le_rfl _
      (List.mem_map_of_mem (List.mem_of_mem_filter hp))
  rw [run_xeParseBootArgs_eq_iff, hs', named_padded hc, hsub.ge_iff_eq.symm, hchars,
    named_intercalate_le_iff, List.forall_mem_map]
  constructor
  · exact fun h p hp _ => h p hp
  · intro h p hp
    by_cases hb : p.behind = []
    · exact hopen p hp hb
    · exact h p hp hb

/-- A blank and a tab before two flags change nothing. -/
theorem xeParseBootArgs_padded_iff_before :
    (XeService.xeParseBootArgs.run (exec { Platform.ideal with
        bootArg := some ⟨32 :: tokenVerbose ++ 44 :: 9 :: tokenNocs, by decide, by decide⟩ })
        .fresh).2
      = (XeService.xeParseBootArgs.run (exec { Platform.ideal with
        bootArg := some ⟨tokenVerbose ++ 44 :: tokenNocs, by decide, by decide⟩ }) .fresh).2 :=
  (xeParseBootArgs_padded_iff ⟨tokenVerbose ++ 44 :: tokenNocs, by decide, by decide⟩
    ⟨32 :: tokenVerbose ++ 44 :: 9 :: tokenNocs, by decide, by decide⟩
    [⟨[32], tokenVerbose, [], List.all_eq_true.mp rfl, List.forall_mem_nil _⟩,
      ⟨[9], tokenNocs, [], List.all_eq_true.mp rfl, List.forall_mem_nil _⟩]
    (by decide) (by decide)).mpr (by simp) .ideal .fresh

/-- `strictsafe` with a blank behind it. -/
def blankBehind : PaddedPiece :=
  ⟨[], tokenStrictsafe, [32], List.forall_mem_nil _, List.all_eq_true.mp rfl⟩

/-- **A blank behind `strictsafe` loses it**: none of its three flags is
set. -/
theorem blank_behind_loses_strictsafe :
    [blankBehind].map PaddedPiece.piece = tokenStrictsafe.splitOn 44
      ∧ (⟨tokenStrictsafe ++ [32], by decide, by decide⟩ : BootArg).chars = padded [blankBehind]
      ∧ ¬∀ (P : Platform) (m : Machine),
        (XeService.xeParseBootArgs.run (exec { P with
            bootArg := some ⟨tokenStrictsafe ++ [32], by decide, by decide⟩ }) m).2
          = (XeService.xeParseBootArgs.run (exec { P with
            bootArg := some ⟨tokenStrictsafe, by decide, by decide⟩ }) m).2 := by
  refine ⟨by decide, by decide, fun h => ?_⟩
  exact absurd (run_xeParseBootArgs_eq_iff.mp h) (by decide)

end XeBootFlags
