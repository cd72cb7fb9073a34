import Mathlib

/-!
# Base64

Bytes as sextets in groups of four symbols, padded at the end, and the lenient
decoder, which passes over symbols outside the alphabet.  The alphabet is a
parameter.
-/

namespace RootSeeker.Base64

abbrev Byte := Fin 256

instance byteBound : NeZero 256 := ⟨by decide⟩

abbrev Sextet := Fin 64

/-- The symbols of the sextets; a decoder may know others. -/
structure Alphabet (α : Type*) where
  symbol : Sextet → α
  pad : α
  value : α → Option Sextet
  value_symbol : ∀ sextet, value (symbol sextet) = some sextet
  symbol_ne_pad : ∀ sextet, symbol sextet ≠ pad

/-! ## Sextets of three bytes -/

def first (a : Byte) : Sextet :=
  ⟨a.val / 4, by omega⟩

def second (a b : Byte) : Sextet :=
  ⟨a.val % 4 * 16 + b.val / 16, by omega⟩

def third (b c : Byte) : Sextet :=
  ⟨b.val % 16 * 4 + c.val / 64, by omega⟩

def fourth (c : Byte) : Sextet :=
  ⟨c.val % 64, by omega⟩

/-- What of a group of four sextets has not become a byte yet. -/
inductive Quad where
  | zero
  | one (left : Fin 64)
  | two (left : Fin 16)
  | three (left : Fin 4)

namespace Quad

def count : Quad → ℕ
  | zero => 0
  | one _ => 1
  | two _ => 2
  | three _ => 3

/-- The byte that a sextet completes, and what is left of the sextet. -/
def push (sextet : Sextet) : Quad → Option Byte × Quad
  | zero => (none, one sextet)
  | one left => (some ⟨left.val * 4 + sextet.val / 16, by omega⟩, two ⟨sextet.val % 16, by omega⟩)
  | two left => (some ⟨left.val * 16 + sextet.val / 4, by omega⟩, three ⟨sextet.val % 4, by omega⟩)
  | three left => (some ⟨left.val * 64 + sextet.val, by omega⟩, zero)

end Quad

section Codec

variable {α : Type*} [DecidableEq α] (alphabet : Alphabet α)

def encode : List Byte → List α
  | a :: b :: c :: rest =>
    alphabet.symbol (first a) :: alphabet.symbol (second a b) ::
      alphabet.symbol (third b c) :: alphabet.symbol (fourth c) :: encode rest
  | [a, b] =>
    [alphabet.symbol (first a), alphabet.symbol (second a b),
      alphabet.symbol (third b 0), alphabet.pad]
  | [a] => [alphabet.symbol (first a), alphabet.symbol (second a 0), alphabet.pad, alphabet.pad]
  | [] => []

/-- The bytes of the remaining symbols, after so many pads in a row; nothing
where the last group is incomplete. -/
def decodeFrom : Quad → ℕ → List α → Option (List Byte)
  | .zero, _, [] => some []
  | _, _, [] => none
  | quad, pads, symbol :: rest =>
    if symbol = alphabet.pad then
      if quad.count < 2 then decodeFrom quad pads rest
      else if 4 ≤ quad.count + (pads + 1) then some []
      else decodeFrom quad (pads + 1) rest
    else
      match alphabet.value symbol with
      | none => decodeFrom quad pads rest
      | some sextet =>
        (decodeFrom (quad.push sextet).2 0 rest).map
          ((quad.push sextet).1.toList ++ ·)

def decode (symbols : List α) : Option (List Byte) :=
  decodeFrom alphabet .zero 0 symbols

variable {alphabet}

theorem decodeFrom_symbol (quad : Quad) (pads : ℕ) (sextet : Sextet) (rest : List α) :
    decodeFrom alphabet quad pads (alphabet.symbol sextet :: rest) =
      (decodeFrom alphabet (quad.push sextet).2 0 rest).map
        ((quad.push sextet).1.toList ++ ·) := by
  rw [decodeFrom, if_neg (alphabet.symbol_ne_pad sextet), alphabet.value_symbol]

theorem decodeFrom_pad {quad : Quad} {pads : ℕ} (hcount : 2 ≤ quad.count) (rest : List α) :
    decodeFrom alphabet quad pads (alphabet.pad :: rest) =
      if 4 ≤ quad.count + (pads + 1) then some []
      else decodeFrom alphabet quad (pads + 1) rest := by
  rw [decodeFrom, if_pos rfl, if_neg (by omega)]

theorem decodeFrom_three (left : Fin 4) :
    decodeFrom alphabet (.three left) 0 [alphabet.pad] = some [] :=
  have hcount : 2 ≤ (Quad.three left).count := Nat.le_succ 2
  (decodeFrom_pad hcount []).trans (if_pos le_rfl)

theorem decodeFrom_two (left : Fin 16) :
    decodeFrom alphabet (.two left) 0 [alphabet.pad, alphabet.pad] = some [] := by
  have hcount : 2 ≤ (Quad.two left).count := le_rfl
  rw [decodeFrom_pad hcount, if_neg (by simp [Quad.count]), decodeFrom_pad hcount]
  exact if_pos le_rfl

/-- The first two sextets give the first byte back. -/
theorem push_second (a b : Byte) :
    (Quad.one (first a)).push (second a b) = (some a, .two ⟨b.val / 16, by omega⟩) := by
  have hbyte : (first a).val * 4 + (second a b).val / 16 = a.val := by
    simp only [first, second]
    omega
  have hleft : (second a b).val % 16 = b.val / 16 := by
    simp only [second]
    omega
  simp only [Quad.push, hbyte, hleft]

theorem push_third (b c : Byte) :
    (Quad.two ⟨b.val / 16, by omega⟩).push (third b c) =
      (some b, .three ⟨c.val / 64, by omega⟩) := by
  have hbyte : b.val / 16 * 16 + (third b c).val / 4 = b.val := by
    simp only [third]
    omega
  have hleft : (third b c).val % 4 = c.val / 64 := by
    simp only [third]
    omega
  simp only [Quad.push, hbyte, hleft]

theorem push_fourth (c : Byte) :
    (Quad.three ⟨c.val / 64, by omega⟩).push (fourth c) = (some c, .zero) := by
  have hbyte : c.val / 64 * 64 + (fourth c).val = c.val := by
    simp only [fourth]
    omega
  simp only [Quad.push, hbyte]

/-- Decoding inverts encoding. -/
theorem decode_encode (bytes : List Byte) :
    decode alphabet (encode alphabet bytes) = some bytes := by
  rw [decode]
  induction bytes using encode.induct with
  | case1 a b c rest ih =>
    rw [encode, decodeFrom_symbol, decodeFrom_symbol, decodeFrom_symbol, decodeFrom_symbol]
    simp [Quad.push.eq_1, push_second, push_third, push_fourth, ih]
  | case2 a b =>
    rw [encode, decodeFrom_symbol, decodeFrom_symbol, decodeFrom_symbol]
    rw [Quad.push, push_second, push_third, decodeFrom_three]
    rfl
  | case3 a =>
    rw [encode, decodeFrom_symbol, decodeFrom_symbol]
    rw [Quad.push, push_second, decodeFrom_two]
    rfl
  | case4 => rfl

theorem encode_injective : Function.Injective (encode alphabet) := by
  intro left right heq
  have hdecoded := congrArg (decode alphabet) heq
  rw [decode_encode, decode_encode] at hdecoded
  exact Option.some.inj hdecoded

theorem encode_ne_nil {bytes : List Byte} (hbytes : bytes ≠ []) :
    encode alphabet bytes ≠ [] := fun hnil =>
  hbytes (encode_injective (hnil.trans (encode.eq_4 alphabet).symm))

omit [DecidableEq α] in
/-- Encoded bytes consist of symbols and pads. -/
theorem forall_mem_encode {good : α → Prop} (hsymbol : ∀ sextet, good (alphabet.symbol sextet))
    (hpad : good alphabet.pad) (bytes : List Byte) :
    ∀ symbol ∈ encode alphabet bytes, good symbol := by
  induction bytes using encode.induct with
  | case1 a b c rest ih =>
    simp only [encode, List.forall_mem_cons]
    exact ⟨hsymbol _, hsymbol _, hsymbol _, hsymbol _, ih⟩
  | case2 a b => simp [encode, hsymbol, hpad]
  | case3 a => simp [encode, hsymbol, hpad]
  | case4 => simp [encode]

omit [DecidableEq α] in
/-- Symbols and then the pads that complete the last group. -/
theorem exists_encode_eq (bytes : List Byte) :
    ∃ body pads, encode alphabet bytes = body ++ List.replicate pads alphabet.pad ∧
      (∀ symbol ∈ body, symbol ≠ alphabet.pad) ∧ pads < 4 ∧ 4 ∣ body.length + pads := by
  have hsymbol := alphabet.symbol_ne_pad
  induction bytes using encode.induct with
  | case1 a b c rest ih =>
    obtain ⟨body, pads, hencode, hbody, hpads, hlength⟩ := ih
    refine ⟨alphabet.symbol (first a) :: alphabet.symbol (second a b) ::
      alphabet.symbol (third b c) :: alphabet.symbol (fourth c) :: body, pads, ?_, ?_, hpads, ?_⟩
    · rw [encode, hencode]
      rfl
    · simp only [List.forall_mem_cons]
      exact ⟨hsymbol _, hsymbol _, hsymbol _, hsymbol _, hbody⟩
    · simp only [List.length_cons]
      omega
  | case2 a b =>
    refine ⟨[alphabet.symbol (first a), alphabet.symbol (second a b),
      alphabet.symbol (third b 0)], 1, rfl, ?_, by omega, by simp⟩
    simp [hsymbol]
  | case3 a =>
    refine ⟨[alphabet.symbol (first a), alphabet.symbol (second a 0)], 2, rfl, ?_, by omega,
      by simp⟩
    simp [hsymbol]
  | case4 => exact ⟨[], 0, rfl, fun _ hsymbol => absurd hsymbol List.not_mem_nil, by omega, by simp⟩

/-! ## What the decoder rejects -/

variable (alphabet)

/-- The symbol stands for a sextet. -/
def isData (symbol : α) : Bool :=
  symbol ≠ alphabet.pad && (alphabet.value symbol).isSome

def dataCount (symbols : List α) : ℕ :=
  symbols.countP (isData alphabet)

/-- The pads before the next symbol of a sextet. -/
def padsAhead (symbols : List α) : ℕ :=
  (symbols.takeWhile (!isData alphabet ·)).count alphabet.pad

/-- Pads complete a group whose second or third sextet was the last one read. -/
def Completes (read : ℕ) (rest : List α) : Prop :=
  2 ≤ read % 4 ∧ 4 ≤ read % 4 + padsAhead alphabet rest

/-- Somewhere pads complete a group, which ends the reading. -/
def ClosedByPads (symbols : List α) : Prop :=
  ∃ before symbol after, symbols = before ++ symbol :: after ∧ isData alphabet symbol = true ∧
    Completes alphabet (dataCount alphabet before + 1) after

variable {alphabet}

theorem isData_pad : isData alphabet alphabet.pad = false := by
  simp [isData]

theorem padsAhead_pad (rest : List α) :
    padsAhead alphabet (alphabet.pad :: rest) = padsAhead alphabet rest + 1 := by
  rw [padsAhead, List.takeWhile_cons_of_pos (by rw [isData_pad]; rfl), List.count_cons_self,
    padsAhead]

theorem padsAhead_other {symbol : α} (hpad : symbol ≠ alphabet.pad)
    (hdata : isData alphabet symbol = false) (rest : List α) :
    padsAhead alphabet (symbol :: rest) = padsAhead alphabet rest := by
  rw [padsAhead, List.takeWhile_cons_of_pos (by rw [hdata]; rfl), List.count_cons_of_ne hpad,
    padsAhead]

theorem padsAhead_data {symbol : α} (hdata : isData alphabet symbol = true) (rest : List α) :
    padsAhead alphabet (symbol :: rest) = 0 := by
  rw [padsAhead, List.takeWhile_cons_of_neg (by rw [hdata]; decide), List.count_nil]

/-- The reading ends early, from a group with so many sextets and pads. -/
def ClosedFrom (read pads : ℕ) (symbols : List α) : Prop :=
  (2 ≤ read ∧ 4 ≤ read + (pads + padsAhead alphabet symbols)) ∨
    ∃ before symbol after, symbols = before ++ symbol :: after ∧ isData alphabet symbol = true ∧
      Completes alphabet (read + dataCount alphabet before + 1) after

theorem closedFrom_skip {read pads pads' : ℕ} {symbol : α} (hdata : isData alphabet symbol = false)
    {rest : List α} (hpads : 2 ≤ read → pads + padsAhead alphabet (symbol :: rest) =
      pads' + padsAhead alphabet rest) :
    @ClosedFrom _ _ alphabet read pads (symbol :: rest) ↔
      @ClosedFrom _ _ alphabet read pads' rest := by
  apply or_congr
  · exact and_congr_right fun hread => by rw [hpads hread]
  · constructor
    · rintro ⟨before, found, after, hsplit, hfound, hcompletes⟩
      cases before with
      | nil =>
        obtain ⟨rfl, rfl⟩ := List.cons.inj hsplit
        exact absurd (hdata.symm.trans hfound) (by decide)
      | cons c before =>
        obtain ⟨rfl, rfl⟩ := List.cons.inj hsplit
        rw [dataCount, List.countP_cons_of_neg (by rw [hdata]; decide)] at hcompletes
        exact ⟨before, found, after, rfl, hfound, hcompletes⟩
    · rintro ⟨before, found, after, rfl, hfound, hcompletes⟩
      refine ⟨symbol :: before, found, after, rfl, hfound, ?_⟩
      rw [dataCount, List.countP_cons_of_neg (by rw [hdata]; decide)]
      exact hcompletes

theorem closedFrom_data {read pads : ℕ} (hpads : 2 ≤ read → read + pads < 4) {symbol : α}
    (hdata : isData alphabet symbol = true) (rest : List α) :
    @ClosedFrom _ _ alphabet read pads (symbol :: rest) ↔
      @ClosedFrom _ _ alphabet ((read + 1) % 4) 0 rest := by
  have hnow : ¬(2 ≤ read ∧ 4 ≤ read + (pads + padsAhead alphabet (symbol :: rest))) := by
    rw [padsAhead_data hdata]
    omega
  rw [ClosedFrom, or_iff_right hnow]
  constructor
  · rintro ⟨before, found, after, hsplit, hfound, hcompletes⟩
    cases before with
    | nil =>
      obtain ⟨rfl, rfl⟩ := List.cons.inj hsplit
      rw [dataCount, List.countP_nil, Completes] at hcompletes
      exact .inl (by omega)
    | cons c before =>
      obtain ⟨rfl, rfl⟩ := List.cons.inj hsplit
      refine .inr ⟨before, found, after, rfl, hfound, ?_⟩
      rw [dataCount, List.countP_cons_of_pos hdata, ← dataCount, Completes] at hcompletes
      rw [Completes]
      omega
  · rintro (hfirst | ⟨before, found, after, rfl, hfound, hcompletes⟩)
    · refine ⟨[], symbol, rest, rfl, hdata, ?_⟩
      rw [dataCount, List.countP_nil, Completes]
      omega
    · refine ⟨symbol :: before, found, after, rfl, hfound, ?_⟩
      rw [dataCount, List.countP_cons_of_pos hdata, ← dataCount, Completes]
      rw [Completes] at hcompletes
      omega

theorem count_push (quad : Quad) (sextet : Sextet) :
    (quad.push sextet).2.count = (quad.count + 1) % 4 := by
  cases quad <;> simp [Quad.push, Quad.count]

theorem decodeFrom_eq_none_iff {quad : Quad} {pads : ℕ}
    (hpads : 2 ≤ quad.count → quad.count + pads < 4) (symbols : List α) :
    decodeFrom alphabet quad pads symbols = none ↔
      (quad.count + dataCount alphabet symbols) % 4 ≠ 0 ∧
        ¬@ClosedFrom _ _ alphabet quad.count pads symbols := by
  induction symbols generalizing quad pads with
  | nil =>
    have hopen : ¬@ClosedFrom _ _ alphabet quad.count pads [] := by
      rintro (⟨hread, hclosed⟩ | ⟨before, symbol, after, hsplit, _⟩)
      · exact absurd (hpads hread) (not_lt.mpr hclosed)
      · exact absurd hsplit.symm (by simp)
    rw [and_iff_left hopen]
    cases quad <;> simp [decodeFrom, dataCount, Quad.count]
  | cons symbol rest ih =>
    by_cases hpad : symbol = alphabet.pad
    · subst hpad
      have hcount : dataCount alphabet (alphabet.pad :: rest) = dataCount alphabet rest := by
        rw [dataCount, List.countP_cons_of_neg (by rw [isData_pad]; decide), dataCount]
      rw [decodeFrom, if_pos rfl, hcount]
      by_cases hearly : quad.count < 2
      · rw [if_pos hearly, ih hpads,
          @closedFrom_skip _ _ _ _ _ pads _ isData_pad _ fun hread => by omega]
      · rw [if_neg hearly]
        by_cases hclosed : 4 ≤ quad.count + (pads + 1)
        · rw [if_pos hclosed]
          refine ⟨fun heq => absurd heq (by simp), fun hboth => absurd (.inl ⟨?_, ?_⟩) hboth.2⟩
          · exact not_lt.mp hearly
          · rw [padsAhead_pad]
            omega
        · rw [if_neg hclosed, ih fun _ => not_le.mp hclosed,
            @closedFrom_skip _ _ _ _ _ (pads + 1) _ isData_pad _ fun _ => by
              rw [padsAhead_pad, Nat.add_right_comm, Nat.add_assoc]]
    · rw [decodeFrom, if_neg hpad]
      cases hvalue : alphabet.value symbol with
      | none =>
        have hdata : isData alphabet symbol = false := by
          rw [isData, hvalue, Option.isSome_none, Bool.and_false]
        simp only
        rw [ih hpads, @closedFrom_skip _ _ _ _ _ pads _ hdata _ fun _ => by
          rw [padsAhead_other hpad hdata]]
        rw [dataCount, dataCount, List.countP_cons_of_neg (by rw [hdata]; decide)]
      | some sextet =>
        have hdata : isData alphabet symbol = true := by
          rw [isData, hvalue, Option.isSome_some, Bool.and_true, decide_eq_true_eq]
          exact hpad
        simp only
        rw [Option.map_eq_none_iff, ih fun hread => by rw [count_push] at hread ⊢; omega,
          count_push, closedFrom_data hpads hdata]
        rw [dataCount, dataCount, List.countP_cons_of_pos hdata]
        refine and_congr_left' (not_congr ?_)
        omega

/-- The decoder rejects what ends inside a group, unless pads completed one before. -/
theorem decode_eq_none_iff (symbols : List α) :
    decode alphabet symbols = none ↔
      dataCount alphabet symbols % 4 ≠ 0 ∧ ¬ClosedByPads alphabet symbols := by
  have hclosed : @ClosedFrom _ _ alphabet 0 0 symbols ↔ ClosedByPads alphabet symbols := by
    rw [ClosedFrom, or_iff_right (by omega), ClosedByPads]
    simp only [Nat.zero_add]
  rw [decode, decodeFrom_eq_none_iff (fun hread => absurd hread (by simp [Quad.count])),
    Quad.count, Nat.zero_add, hclosed]

/-- The bits of a group that are not part of a byte yet. -/
def Quad.bits : Quad → ℕ
  | zero => 0
  | one _ => 6
  | two _ => 4
  | three _ => 2

theorem bits_push (quad : Quad) (sextet : Sextet) :
    8 * (quad.push sextet).1.toList.length + (quad.push sextet).2.bits = quad.bits + 6 := by
  cases quad <;> rfl

/-- Every byte takes the bits of its sextets. -/
theorem length_decodeFrom_le {quad : Quad} {pads : ℕ} {symbols : List α} {bytes : List Byte}
    (hdecoded : decodeFrom alphabet quad pads symbols = some bytes) :
    8 * bytes.length ≤ 6 * dataCount alphabet symbols + quad.bits := by
  induction symbols generalizing quad pads bytes with
  | nil =>
    cases quad with
    | zero =>
      obtain rfl := Option.some.inj hdecoded
      exact Nat.zero_le _
    | one | two | three => exact absurd hdecoded (by simp [decodeFrom])
  | cons symbol rest ih =>
    rw [decodeFrom] at hdecoded
    have hcount : dataCount alphabet rest ≤ dataCount alphabet (symbol :: rest) := by
      rw [dataCount, dataCount, List.countP_cons]
      omega
    by_cases hpad : symbol = alphabet.pad
    · rw [if_pos hpad] at hdecoded
      split at hdecoded
      · exact (ih hdecoded).trans (by omega)
      · split at hdecoded
        · obtain rfl := Option.some.inj hdecoded
          exact Nat.zero_le _
        · exact (ih hdecoded).trans (by omega)
    · rw [if_neg hpad] at hdecoded
      cases hvalue : alphabet.value symbol with
      | none =>
        rw [hvalue] at hdecoded
        exact (ih hdecoded).trans (by omega)
      | some sextet =>
        have hdata : isData alphabet symbol = true := by
          rw [isData, hvalue, Option.isSome_some, Bool.and_true, decide_eq_true_eq]
          exact hpad
        rw [hvalue] at hdecoded
        obtain ⟨later, hlater, rfl⟩ := Option.map_eq_some_iff.mp hdecoded
        have hbits := bits_push quad sextet
        have hrest := ih hlater
        rw [dataCount, List.countP_cons_of_pos hdata, ← dataCount, List.length_append]
        omega

end Codec

end RootSeeker.Base64
