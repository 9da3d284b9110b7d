import ShaderGraph.Json.Reader
import ShaderGraph.Proofs.Tokens

/-!
# Scalars come back from their written form

A text is read back character by character: each escape that is written stands
for one character, and every other character stands for itself
(`readText_quoted`). A whole number of 64 bits is read back as long as what
follows cannot be taken for more of it (`readScalar_integer`). In written JSON
there follows a comma, a closing bracket or nothing, and that is what `Ends`
asks for.
-/

namespace ShaderGraph.Json

open ShaderGraph.Template

/-! ## Texts -/

theorem hexValue_hexDigit :
    ∀ n < 16, isHexDigit (hexDigit n) = true ∧ hexValue (hexDigit n) = n := by
  decide

theorem readHex_hexDigits {a b : Nat} (ha : a < 16) (hb : b < 16) (rest : List Char) :
    readHex ('0' :: '0' :: hexDigit a :: hexDigit b :: rest) = .ok (a * 16 + b, rest) := by
  obtain ⟨hda, hva⟩ := hexValue_hexDigit a ha
  obtain ⟨hdb, hvb⟩ := hexValue_hexDigit b hb
  have hzero : isHexDigit '0' = true ∧ hexValue '0' = 0 := by decide
  simp [readHex, hda, hdb, hva, hvb, hzero]

theorem readQuoted_of_escape {c : Char} {cs rest : List Char} (h : readEscape cs = .ok (c, rest)) :
    readQuoted ('\\' :: cs) = (readQuoted rest).map (fun p => (c :: p.1, p.2)) := by
  rw [readQuoted, if_neg (by decide), if_pos rfl]
  split
  · next hescape =>
    rw [h] at hescape
    cases hescape
  · next hescape =>
    rw [h] at hescape
    cases hescape
    rfl

theorem readQuoted_of_plain {c : Char} (hquote : c ≠ '"') (hslash : c ≠ '\\')
    (hcontrol : ¬ c.toNat < 0x20) (rest : List Char) :
    readQuoted (c :: rest) = (readQuoted rest).map (fun p => (c :: p.1, p.2)) := by
  rw [readQuoted, if_neg hquote, if_neg hslash, if_neg hcontrol]

theorem readEscape_hexDigits {c : Char} (h : c.toNat < 0x20) (rest : List Char) :
    readEscape ('u' :: '0' :: '0' :: hexDigit (c.toNat / 16) :: hexDigit (c.toNat % 16) :: rest)
      = .ok (c, rest) := by
  have hhex := readHex_hexDigits (a := c.toNat / 16) (b := c.toNat % 16) (by omega) (by omega) rest
  have hsum : c.toNat / 16 * 16 + c.toNat % 16 = c.toNat := by omega
  rw [hsum] at hhex
  have hnoPair : isTrailing c.toNat = false ∧ isLeading c.toNat = false := by
    simp only [isTrailing, isLeading, Bool.and_eq_false_iff, decide_eq_false_iff_not]
    omega
  show readCodePoint _ = _
  simp [readCodePoint, hhex, hnoPair, bind, Except.bind, pure, Except.pure, Char.ofNat_toNat]

/-- However a character is written, it is read as one character. -/
theorem readQuoted_escapeChar (c : Char) (rest : List Char) :
    readQuoted (escapeChar c ++ rest) = (readQuoted rest).map (fun p => (c :: p.1, p.2)) := by
  have hchar : ∀ d : Char, c.toNat = d.toNat → c = d := fun d h => Char.toNat_inj.mp h
  unfold escapeChar
  split_ifs with hquote hslash hback hfeed hline hreturn htab hcontrol
  · subst hquote
    exact readQuoted_of_escape rfl
  · subst hslash
    exact readQuoted_of_escape rfl
  · rw [hchar '\x08' hback]
    exact readQuoted_of_escape rfl
  · rw [hchar '\x0c' hfeed]
    exact readQuoted_of_escape rfl
  · subst hline
    exact readQuoted_of_escape rfl
  · subst hreturn
    exact readQuoted_of_escape rfl
  · subst htab
    exact readQuoted_of_escape rfl
  · exact readQuoted_of_escape (readEscape_hexDigits hcontrol rest)
  · exact readQuoted_of_plain hquote hslash hcontrol rest

theorem readQuoted_quoted (cs rest : List Char) :
    readQuoted (cs.flatMap escapeChar ++ '"' :: rest) = .ok (cs, rest) := by
  induction cs with
  | nil =>
    rw [List.flatMap_nil, List.nil_append, readQuoted, if_pos rfl]
  | cons c cs ih =>
    rw [List.flatMap_cons, List.append_assoc, readQuoted_escapeChar, ih]
    rfl

/-- A text is read back from its characters and the closing quote. -/
theorem readText_quoted (s : String) (rest : List Char) :
    readText (s.toList.flatMap escapeChar ++ '"' :: rest) = .ok (s, rest) := by
  rw [readText, readQuoted_quoted]
  simp [Except.map]

/-! ## Whole numbers -/

/-- What can stand after a written value: nothing, a comma or a closing bracket. -/
def Ends (rest : List Char) : Prop := ∀ c ∈ rest.head?, c = ',' ∨ c = ']' ∨ c = '}'

theorem Ends.not_isDigit {rest : List Char} (h : Ends rest) :
    ∀ c ∈ rest.head?, c.isDigit = false := by
  intro c hc
  rcases h c hc with rfl | rfl | rfl
  · decide
  · decide
  · decide

theorem isDigit_of_mem_natDigits {n : Nat} : ∀ c ∈ natDigits n, c.isDigit = true :=
  fun _ hc => Nat.isDigit_of_mem_toDigits (by decide) (by decide) hc

/-- Only zero is written with a leading zero. -/
theorem head?_natDigits {n : Nat} (h : 0 < n) : (natDigits n).head? ≠ some '0' := by
  induction n using Nat.strong_induction_on with
  | _ n ih =>
    rw [natDigits, Nat.toDigits_eq_if (by decide)]
    split_ifs with hlt
    · have hsmall : ∀ m < 10, 0 < m → [m.digitChar].head? ≠ some '0' := by decide
      exact hsmall n hlt h
    · rw [List.head?_append_of_ne_nil _ Nat.toDigits_ne_nil]
      exact ih (n / 10) (by omega) (by omega)

theorem scanWhole_natDigits (n : Nat) {rest : List Char}
    (h : ∀ c ∈ rest.head?, c.isDigit = false) :
    scanWhole (natDigits n ++ rest) = .ok (natDigits n, rest) := by
  rcases Nat.eq_zero_or_pos n with rfl | hpos
  · cases rest with
    | nil => rfl
    | cons c rest =>
      have hc : c.isDigit = false := h c rfl
      show scanWhole ('0' :: c :: rest) = _
      simp [scanWhole, hc, natDigits]
  · have hdigits := isDigit_of_mem_natDigits (n := n)
    have hhead := head?_natDigits hpos
    cases hd : natDigits n with
    | nil => exact absurd hd Nat.toDigits_ne_nil
    | cons d ds =>
      rw [hd, List.forall_mem_cons] at hdigits
      have hzero : d ≠ '0' := by
        intro heq
        rw [hd, heq] at hhead
        exact hhead rfl
      rw [List.cons_append]
      unfold scanWhole
      simp only [if_neg hzero, if_pos hdigits.1, takeWhile_run hdigits.2 h,
        dropWhile_run hdigits.2 h]

theorem scanTail_of_ends {rest : List Char} (h : Ends rest) : scanTail rest = .ok (none, rest) := by
  cases rest with
  | nil => rfl
  | cons c rest =>
    rcases h c rfl with rfl | rfl | rfl
    · rfl
    · rfl
    · rfl

theorem scanNumeral_natDigits (negative : Bool) (n : Nat) {rest : List Char} (h : Ends rest) :
    scanNumeral negative (natDigits n ++ rest)
      = .ok (⟨negative, natDigits n, none, none⟩, rest) := by
  have hpoint : ∀ cs, rest ≠ '.' :: cs := by
    rintro cs rfl
    rcases h '.' rfl with hc | hc | hc
    · cases hc
    · cases hc
    · cases hc
  simp only [scanNumeral, scanWhole_natDigits n h.not_isDigit, scanTail_of_ends h, bind,
    Except.bind]
  rfl

/-- Digits whose number fits are gathered to the last one. -/
theorem gather_eq (ds : List Char) (k : Nat) (h : Nat.ofDigitChars 10 ds k < Nat.pow 2 64) :
    gather k ds = (Nat.ofDigitChars 10 ds k, 0) := by
  induction ds generalizing k with
  | nil => rfl
  | cons d ds ih =>
    have hstep : Nat.ofDigitChars 10 (d :: ds) k
        = Nat.ofDigitChars 10 ds (k * 10 + digitValue d) := by
      rw [Nat.ofDigitChars_cons, Nat.mul_comm 10 k]
      rfl
    rw [hstep] at h ⊢
    -- further digits only make the number larger
    have hle : k * 10 + digitValue d ≤ Nat.ofDigitChars 10 ds (k * 10 + digitValue d) := by
      rw [Nat.ofDigitChars_eq_ofDigitChars_zero]
      exact Nat.le_add_right_of_le (Nat.le_mul_of_pos_left _ (Nat.pow_pos (by decide)))
    unfold gather
    simp only [if_pos (Nat.lt_of_le_of_lt hle h)]
    exact ih _ h

theorem gather_natDigits {n : Nat} (h : n < Nat.pow 2 64) : gather 0 (natDigits n) = (n, 0) := by
  have hvalue : Nat.ofDigitChars 10 (natDigits n) 0 = n := Nat.ofDigitChars_ten_toDigits
  rw [gather_eq _ _ (by rwa [hvalue]), hvalue]

theorem readNumber_natDigits {negative : Bool} {n : Nat} {number : Number} {rest : List Char}
    (hfits : n < Nat.pow 2 64) (hwhole : wholeNumber? negative n = some number)
    (hrest : Ends rest) : readNumber negative (natDigits n ++ rest) = .ok (number, rest) := by
  have hvalue : Numeral.value ⟨negative, natDigits n, none, none⟩ = .ok number := by
    simp [Numeral.value, gather_natDigits hfits, hwhole]
  simp [readNumber, scanNumeral_natDigits negative n hrest, hvalue, bind, Except.bind, pure,
    Except.pure]

theorem wholeNumber?_of_value {negative : Bool} {n : Nat} {i : Int}
    (hvalue : (if negative then -(n : Int) else n) = i) (hzero : ¬ (negative && n == 0) = true)
    (h : -Int.pow 2 63 ≤ i ∧ i < Int.pow 2 64) :
    wholeNumber? negative n = some (.integer i h) := by
  subst hvalue
  unfold wholeNumber?
  rw [if_neg hzero, dif_pos h]

theorem wholeNumber?_natAbs {n : Int} (h : -Int.pow 2 63 ≤ n ∧ n < Int.pow 2 64) :
    wholeNumber? (decide (n < 0)) n.natAbs = some (.integer n h) := by
  by_cases hneg : n < 0
  · rw [decide_eq_true hneg]
    refine wholeNumber?_of_value ?_ ?_ h
    · rw [if_pos rfl]
      omega
    · rw [Bool.true_and, beq_iff_eq]
      omega
  · rw [decide_eq_false hneg]
    refine wholeNumber?_of_value ?_ (by simp) h
    rw [if_neg (by simp)]
    omega

theorem natAbs_lt {n : Int} (h : -Int.pow 2 63 ≤ n ∧ n < Int.pow 2 64) :
    n.natAbs < Nat.pow 2 64 := by
  have h63 : Int.pow 2 63 = 9223372036854775808 := rfl
  have h64 : Int.pow 2 64 = 18446744073709551616 := rfl
  have h64' : Nat.pow 2 64 = 18446744073709551616 := rfl
  omega

theorem readScalar_of_digit {c : Char} (h : c.isDigit = true) (cs : List Char) :
    readScalar (c :: cs) = (readNumber false (c :: cs)).map (fun p => (Value.number p.1, p.2)) := by
  have hne : ∀ d : Char, d.isDigit = false → c ≠ d := by
    rintro d hd rfl
    rw [h] at hd
    cases hd
  rw [readScalar, if_neg (hne 'n' (by decide)), if_neg (hne 't' (by decide)),
    if_neg (hne 'f' (by decide)), if_neg (hne '-' (by decide)), if_pos h]

/-- A whole number is read back from its digits and its sign. -/
theorem readScalar_integer {n : Int} (h : -Int.pow 2 63 ≤ n ∧ n < Int.pow 2 64)
    {rest : List Char} (hrest : Ends rest) :
    readScalar (integerText n ++ rest) = .ok (.number (.integer n h), rest) := by
  have hwhole := wholeNumber?_natAbs h
  unfold integerText
  by_cases hneg : n < 0
  · rw [decide_eq_true hneg] at hwhole
    rw [if_pos hneg]
    show (readNumber true (natDigits n.natAbs ++ rest)).map _ = _
    rw [readNumber_natDigits (natAbs_lt h) hwhole hrest]
    rfl
  · rw [decide_eq_false hneg] at hwhole
    rw [if_neg hneg]
    have hnumber := readNumber_natDigits (natAbs_lt h) hwhole hrest
    have hdigits := isDigit_of_mem_natDigits (n := n.natAbs)
    cases hd : natDigits n.natAbs with
    | nil => exact absurd hd Nat.toDigits_ne_nil
    | cons d ds =>
      rw [hd] at hdigits hnumber
      rw [List.cons_append] at hnumber ⊢
      rw [readScalar_of_digit (hdigits d List.mem_cons_self), hnumber]
      rfl

end ShaderGraph.Json
