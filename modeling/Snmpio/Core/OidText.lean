import Snmpio.Core.Octets
import Snmpio.Core.Oid
import Mathlib.Data.List.TakeWhile
import Mathlib.Data.Nat.Digits.Lemmas

/-
  Object identifiers as text.

  A text is the octets of a `std::string_view`.  The two
  conversions of the standard library are taken as the
  decimal ones, with overflow reported.

  Key definitions include:
    * `Oid.fromChars`
    * `Oid.toChars`
    * `Oid.parse`
    * `Oid.toString`
    * `Oid.Numeral`
    * `Oid.Dotted`
    * `Oid.DottedText`

  Key theorems include:
    * `Oid.parsePart_eq_some_iff`
    * `Oid.Dotted.parseSubids_eq`
    * `Oid.Dotted.of_parseSubids`
    * `Oid.parse_grammar_and_print`
-/

------------------------------------------------------------
-- Conversions
------------------------------------------------------------

namespace Snmpio

namespace Oid

def dot : UInt8 := 0x2E

def isDigit
    (c : UInt8) : Bool :=
  0x30 ≤ c && c ≤ 0x39

/- The number a run of digits denotes. -/
def decimalValue
    (digits : Octets) : Nat :=
  Positional.value 10 (digits.map (fun c => c.toNat - 0x30))

/-
  `std::from_chars` into a `std::uint64_t`: the digits at
  the front, and what `ptr` points to.  `none` is an `ec`,
  for no digits or a number that does not fit.
-/
def fromChars
    (text : Octets) : Option (UInt64 × Octets) :=
  let digits := text.takeWhile isDigit
  if digits.isEmpty then none
  else if decimalValue digits ≥ 2 ^ 64 then none
  else
    some (UInt64.ofNat (decimalValue digits),
      text.dropWhile isDigit)

/-
  `std::to_chars` into a buffer of `room` octets.  `none` is
  an `ec`, for a number that does not fit.
-/
def toChars
    (room : Nat)
    (v : UInt32) : Option Octets :=
  let digits :=
    if v = 0 then [0x30]
    else
      (Nat.digits 10 v.toNat).reverse.map
        (fun d => UInt8.ofNat (0x30 + d))
  if digits.length ≤ room then some digits else none

end Oid

end Snmpio

------------------------------------------------------------
-- Parsing and Printing
------------------------------------------------------------

namespace Snmpio

namespace Oid

/- The checks on what stands between two dots. -/
def parsePart
    (part : Octets) : Option UInt32 :=
  match part with
  | [] => none
  | front :: _ =>
      if front < 0x30 ∨ front > 0x39 then none
      else
        match fromChars part with
        | none => none
        | some (wide, rest) =>
            if ¬ rest.isEmpty then none
            else if wide.toNat > 2 ^ 32 - 1 then none
            else some wide.toUInt32

/-
  The loop, on the text from `start` on.  What follows the
  part is nothing where `find` returns `npos`.
-/
def parseSubids
    (text : Octets)
    (result : List UInt32) : Option Oid :=
  let part := text.takeWhile (· != dot)
  match parsePart part with
  | none => none
  | some wide =>
      if result.length = maxSubids then none
      else
        match _hRest : text.dropWhile (· != dot) with
        | [] => some ⟨result ++ [wide]⟩
        | _ :: rest => parseSubids rest (result ++ [wide])
termination_by text.length
decreasing_by
  have hLe := List.length_dropWhile_le (· != dot) text
  rw [_hRest, List.length_cons] at hLe
  omega

def parse
    (text : Octets) : Option Oid :=
  let text :=
    if text.head? = some dot then text.drop 1 else text
  if text.isEmpty then none
  else parseSubids text []

/- The loop, `first` while `i` is zero. -/
def printSubids :
    (first : Bool) → List UInt32 → Octets
| _, [] => []
| first, v :: subids =>
    (if first then [] else [dot]) ++
      -- The error of `to_chars` is not looked at.
      (toChars 12 v).getD [] ++ printSubids false subids

def toString
    (o : Oid) : Octets :=
  printSubids true o.subids

end Oid

end Snmpio

------------------------------------------------------------
-- Dotted Decimal
------------------------------------------------------------

namespace Snmpio

namespace Oid

/- A run of digits, with any leading zeros. -/
def Numeral
    (d : Octets)
    (v : UInt32) : Prop :=
  d ≠ [] ∧ (∀ c ∈ d, isDigit c = true) ∧
    decimalValue d = v.toNat

/- Numerals with one dot between any two. -/
inductive Dotted :
    Octets → List UInt32 → Prop
  | one
      {d : Octets}
      {v : UInt32}
      (hNumeral : Numeral d v) :
      Dotted d [v]
  | cons
      {d rest : Octets}
      {v : UInt32}
      {subids : List UInt32}
      (hNumeral : Numeral d v)
      (hRest : Dotted rest subids) :
      Dotted (d ++ dot :: rest) (v :: subids)

/- What `parse` is documented to take. -/
def DottedText
    (s : Octets)
    (o : Oid) : Prop :=
  ∃ body,
    (s = body ∨ s = dot :: body) ∧ Dotted body o.subids ∧
      1 ≤ o.size ∧ o.size ≤ 128

theorem isDigit_iff
    (c : UInt8) :
    isDigit c = true ↔ 0x30 ≤ c.toNat ∧ c.toNat ≤ 0x39 := by
  simp [isDigit, UInt8.le_iff_toNat_le]

theorem isDigit_ne_dot
    {c : UInt8}
    (hDigit : isDigit c = true) :
    (c != dot) = true := by
  rw [isDigit_iff] at hDigit
  rw [bne_iff_ne]
  rintro rfl
  simp [dot] at hDigit

theorem fromChars_eq_some_iff
    {text rest : Octets}
    {v : UInt64} :
    fromChars text = some (v, rest) ↔
      text.takeWhile isDigit ≠ [] ∧
        decimalValue (text.takeWhile isDigit) = v.toNat ∧
        rest = text.dropWhile isDigit := by
  have hBound := v.toNat_lt
  unfold fromChars
  by_cases hNil : text.takeWhile isDigit = []
  · simp [hNil]
  · by_cases hLarge :
        decimalValue (text.takeWhile isDigit) ≥ 2 ^ 64
    · rw [if_neg (by simpa using hNil), if_pos hLarge]
      simp only [reduceCtorEq, false_iff, not_and]
      omega
    · have hFits :
          (UInt64.ofNat (decimalValue
            (text.takeWhile isDigit))).toNat =
              decimalValue (text.takeWhile isDigit) :=
        UInt64.toNat_ofNat_of_lt (by
          rw [UInt64.size]
          omega)
      simp only [List.isEmpty_iff, hNil, if_false, hLarge,
        Option.some.injEq, Prod.mk.injEq,
        ← UInt64.toNat_inj, hFits, ne_eq, not_false_eq_true,
        true_and]
      exact and_congr_right (fun _ => eq_comm)

/- The checks accept the numerals of 32 bits. -/
theorem parsePart_eq_some_iff
    (d : Octets)
    (v : UInt32) :
    parsePart d = some v ↔ Numeral d v := by
  cases d with
  | nil => simp [parsePart, Numeral]
  | cons front d =>
      constructor
      · intro hParse
        simp only [parsePart] at hParse
        split at hParse
        · cases hParse
        · cases hFromChars : fromChars (front :: d) with
          | none => simp [hFromChars] at hParse
          | some found =>
              rcases found with ⟨wide, rest⟩
              rcases fromChars_eq_some_iff.mp hFromChars with
                ⟨_, hValue, hRest⟩
              simp only [hFromChars] at hParse
              split at hParse
              · cases hParse
              · rename_i hEmpty
                split at hParse
                · cases hParse
                · have hAll :
                      ∀ c ∈ front :: d,
                        isDigit c = true := by
                    rw [← List.dropWhile_eq_nil_iff,
                      ← hRest]
                    simpa using hEmpty
                  rw [List.takeWhile_eq_self_iff.mpr hAll]
                    at hValue
                  rcases Option.some.inj hParse with rfl
                  refine ⟨List.cons_ne_nil _ _, hAll, ?_⟩
                  rw [hValue, UInt64.toNat_toUInt32,
                    Nat.mod_eq_of_lt (by omega)]
      · rintro ⟨_, hAll, hValue⟩
        have hBound := v.toNat_lt
        have hFront :=
          (isDigit_iff front).mp
            (hAll front List.mem_cons_self)
        have hRange : ¬ (front < 0x30 ∨ front > 0x39) := by
          simp only [UInt8.lt_iff_toNat_lt, gt_iff_lt,
            UInt8.reduceToNat]
          omega
        have hFromChars :
            fromChars (front :: d) =
              some (v.toUInt64, []) := by
          rw [fromChars_eq_some_iff,
            List.takeWhile_eq_self_iff.mpr hAll,
            List.dropWhile_eq_nil_iff.mpr hAll]
          exact ⟨List.cons_ne_nil _ _, by simpa using hValue,
            rfl⟩
        unfold parsePart
        simp only [hFromChars, if_neg hRange]
        simp
        omega

end Oid

end Snmpio

------------------------------------------------------------
-- Round Trips
------------------------------------------------------------

namespace Snmpio

namespace Oid

variable {d text : Octets} {v : UInt32}
variable {subids : List UInt32} {o : Oid}

theorem Numeral.no_dot
    (hNumeral : Numeral d v) :
    ∀ c ∈ d, (c != dot) = true :=
  fun c hc => isDigit_ne_dot (hNumeral.2.1 c hc)

/- One numeral is the last part of a text. -/
theorem parseSubids_last
    (hNumeral : Numeral d v)
    (result : List UInt32) :
    parseSubids d result =
      if result.length = maxSubids then none
      else some ⟨result ++ [v]⟩ := by
  have hTake : d.takeWhile (· != dot) = d :=
    List.takeWhile_eq_self_iff.mpr hNumeral.no_dot
  have hDrop : d.dropWhile (· != dot) = [] :=
    List.dropWhile_eq_nil_iff.mpr hNumeral.no_dot
  have hPart := (parsePart_eq_some_iff d v).mpr hNumeral
  rw [parseSubids]
  simp only [hTake, hPart]
  split
  · rfl
  · split
    · rfl
    · rename_i hRest
      rw [hDrop] at hRest
      cases hRest

/- A numeral before a dot is a part with others after it. -/
theorem parseSubids_next
    (hNumeral : Numeral d v)
    (rest : Octets)
    (result : List UInt32) :
    parseSubids (d ++ dot :: rest) result =
      if result.length = maxSubids then none
      else parseSubids rest (result ++ [v]) := by
  have hTake :
      (d ++ dot :: rest).takeWhile (· != dot) = d := by
    rw [List.takeWhile_append_of_pos hNumeral.no_dot]
    simp
  have hDrop :
      (d ++ dot :: rest).dropWhile (· != dot) =
        dot :: rest := by
    rw [List.dropWhile_append_of_pos hNumeral.no_dot]
    simp
  have hPart := (parsePart_eq_some_iff d v).mpr hNumeral
  rw [parseSubids]
  simp only [hTake, hPart]
  split
  · rfl
  · split
    · rename_i hRest
      rw [hDrop] at hRest
      cases hRest
    · rename_i hRest
      rw [hDrop] at hRest
      rcases List.cons.inj hRest with ⟨_, rfl⟩
      rfl

/- Dotted decimal is parsed, up to the count. -/
theorem Dotted.parseSubids_eq
    (hDotted : Dotted text subids)
    (result : List UInt32)
    (hResult : result.length ≤ maxSubids) :
    parseSubids text result =
      if result.length + subids.length ≤ maxSubids then
        some ⟨result ++ subids⟩
      else none := by
  induction hDotted generalizing result with
  | one hNumeral =>
      rw [parseSubids_last hNumeral]
      by_cases hFull : result.length = maxSubids
      · rw [if_pos hFull, if_neg (by simp; omega)]
      · rw [if_neg hFull, if_pos (by simp; omega)]
  | @cons d rest v subids hNumeral hRest ih =>
      rw [parseSubids_next hNumeral]
      by_cases hFull : result.length = maxSubids
      · rw [if_pos hFull, if_neg (by simp; omega)]
      · rw [if_neg hFull, ih (result ++ [v]) (by simp; omega)]
        simp only [List.length_append, List.length_cons,
          List.length_nil, List.append_assoc,
          List.cons_append, List.nil_append, Nat.zero_add,
          Nat.add_assoc, Nat.add_comm 1]

/- What is not taken begins with the dot that was found. -/
theorem head_eq_dot
    {rest : Octets}
    {c : UInt8}
    (hRest : text.dropWhile (· != dot) = c :: rest) :
    c = dot := by
  have hNot :=
    List.head_dropWhile_not (· != dot) (l := text)
      (by simp [hRest])
  simpa [hRest] using hNot

/- What is parsed is dotted decimal. -/
theorem Dotted.of_parseSubids
    {result : List UInt32}
    (hParse : parseSubids text result = some o) :
    ∃ subids, Dotted text subids := by
  have hSplit :
      ∀ text : Octets,
        text.takeWhile (· != dot) ++
          text.dropWhile (· != dot) = text :=
    fun _ => List.takeWhile_append_dropWhile
  induction text, result using parseSubids.induct with
  | case1 text result part hPart =>
      rw [parseSubids] at hParse
      simp [part, hPart] at hParse
  | case2 text result part wide hPart hFull =>
      rw [parseSubids] at hParse
      simp [part, hPart, hFull] at hParse
  | case3 text result part wide hPart hRoom hRest =>
      have hNumeral :=
        (parsePart_eq_some_iff part wide).mp hPart
      have hWhole := hSplit text
      rw [hRest, List.append_nil] at hWhole
      rw [← hWhole]
      exact ⟨[wide], Dotted.one hNumeral⟩
  | case4 text result part wide hPart hRoom head rest hRest
      ih =>
      have hNumeral :=
        (parsePart_eq_some_iff part wide).mp hPart
      have hWhole := hSplit text
      rw [hRest, head_eq_dot hRest] at hWhole
      rw [← hWhole, parseSubids_next hNumeral,
        if_neg hRoom] at hParse
      rcases ih hParse with ⟨subids, hDotted⟩
      rw [← hWhole]
      exact ⟨wide :: subids, Dotted.cons hNumeral hDotted⟩

theorem Dotted.subids_ne_nil
    (hDotted : Dotted text subids) :
    subids ≠ [] := by
  cases hDotted with
  | one hNumeral => simp
  | cons hNumeral hRest => simp

/- A numeral begins with a digit, so a text does. -/
theorem Dotted.head_isDigit
    (hDotted : Dotted text subids) :
    ∃ c rest, text = c :: rest ∧ isDigit c = true := by
  have hFirst :
      ∀ {d : Octets} {v : UInt32}, Numeral d v →
        ∀ after, ∃ c rest,
          d ++ after = c :: rest ∧ isDigit c = true := by
    intro d v hNumeral after
    rcases List.exists_cons_of_ne_nil hNumeral.1 with
      ⟨c, rest, rfl⟩
    exact ⟨c, rest ++ after, rfl,
      hNumeral.2.1 c List.mem_cons_self⟩
  cases hDotted with
  | one hNumeral =>
      have hHead := hFirst hNumeral []
      rwa [List.append_nil] at hHead
  | cons hNumeral hRest => exact hFirst hNumeral _

/- Only one leading dot is dropped. -/
theorem Dotted.parse_eq
    (hDotted : Dotted text subids) :
    parse text =
        (if subids.length ≤ maxSubids then some ⟨subids⟩
          else none) ∧
      parse (dot :: text) = parse text := by
  rcases hDotted.head_isDigit with ⟨c, rest, hText, hDigit⟩
  have hHead : text.head? ≠ some dot := by
    have hNe := isDigit_ne_dot hDigit
    rw [hText, List.head?_cons]
    simpa using hNe
  have hEmpty : ¬ text.isEmpty = true := by simp [hText]
  have hParse :
      parse text = parseSubids text [] := by
    simp only [parse, if_neg hHead, if_neg hEmpty]
  have hDot :
      parse (dot :: text) = parseSubids text [] := by
    simp [parse, hText]
  rw [hDot, hParse,
    hDotted.parseSubids_eq [] (by simp)]
  simp

/- What `parse` takes, with the dot it drops. -/
theorem DottedText.of_parse
    {s : Octets}
    (hParse : parse s = some o) :
    DottedText s o := by
  have hBody :
      ∃ body, (s = body ∨ s = dot :: body) ∧
        ∃ subids, Dotted body subids := by
    unfold parse at hParse
    by_cases hDot : s.head? = some dot
    · rw [List.head?_eq_some_iff] at hDot
      rcases hDot with ⟨body, rfl⟩
      simp only [List.head?_cons, if_true, List.drop_succ_cons,
        List.drop_zero] at hParse
      split at hParse
      · cases hParse
      · exact ⟨body, Or.inr rfl, Dotted.of_parseSubids hParse⟩
    · simp only [if_neg hDot] at hParse
      split at hParse
      · cases hParse
      · exact ⟨s, Or.inl rfl, Dotted.of_parseSubids hParse⟩
  rcases hBody with ⟨body, hText, subids, hDotted⟩
  have hEq := hDotted.parse_eq
  have hOid :
      parse s =
        if subids.length ≤ maxSubids then some ⟨subids⟩
        else none := by
    rcases hText with rfl | rfl
    · exact hEq.1
    · rw [hEq.2, hEq.1]
  rw [hOid] at hParse
  split at hParse
  · rename_i hCount
    rcases Option.some.inj hParse with rfl
    have hPos := List.length_pos_iff.mpr hDotted.subids_ne_nil
    exact ⟨body, hText, hDotted, hPos, hCount⟩
  · cases hParse

theorem DottedText.parse_eq
    {s : Octets}
    (hText : DottedText s o) :
    parse s = some o := by
  rcases hText with ⟨body, hBody, hDotted, _, hCount⟩
  have hEq := hDotted.parse_eq
  have hRoom : o.subids.length ≤ maxSubids := hCount
  rw [if_pos hRoom] at hEq
  rcases hBody with rfl | rfl
  · exact hEq.1
  · rw [hEq.2, hEq.1]

theorem digitOctet_toNat
    {d : Nat}
    (hDigit : d < 10) :
    (UInt8.ofNat (0x30 + d)).toNat = 0x30 + d :=
  Octets.toNat_ofNat_octet (by omega)

/- The digits of a number denote it. -/
theorem digits_numeral
    (hPos : v ≠ 0) :
    Numeral
      ((Nat.digits 10 v.toNat).reverse.map
        (fun d => UInt8.ofNat (0x30 + d))) v := by
  have hLt :
      ∀ d ∈ (Nat.digits 10 v.toNat).reverse, d < 10 := by
    intro d hd
    exact Nat.digits_lt_base (by omega)
      (List.mem_reverse.mp hd)
  refine ⟨?_, ?_, ?_⟩
  · have hNe : v.toNat ≠ 0 := by
      intro hZero
      exact hPos (UInt32.toNat_inj.mp hZero)
    simpa using Nat.digits_ne_nil_iff_ne_zero.mpr hNe
  · intro c hc
    rcases List.mem_map.mp hc with ⟨d, hd, rfl⟩
    have hDigit := hLt d hd
    rw [isDigit_iff, digitOctet_toNat hDigit]
    omega
  · have hBack :
        ((Nat.digits 10 v.toNat).reverse.map
            (fun d => UInt8.ofNat (0x30 + d))).map
          (fun c => c.toNat - 0x30) =
            (Nat.digits 10 v.toNat).reverse := by
      have hId :
          ∀ d ∈ (Nat.digits 10 v.toNat).reverse,
            ((fun c : UInt8 => c.toNat - 0x30) ∘
              fun d => UInt8.ofNat (0x30 + d)) d = id d := by
        intro d hd
        rw [Function.comp_apply, digitOctet_toNat (hLt d hd),
          Nat.add_sub_cancel_left, id]
      rw [List.map_map, List.map_congr_left hId, List.map_id]
    rw [decimalValue, hBack, Positional.value,
      List.reverse_reverse, Nat.ofDigits_digits]

/- The buffer of twelve octets is never short. -/
theorem toChars_numeral
    (v : UInt32) :
    Numeral ((toChars 12 v).getD []) v := by
  by_cases hZero : v = 0
  · subst hZero
    have hText : (toChars 12 0).getD [] = [0x30] := by
      simp [toChars]
    rw [hText]
    refine ⟨by simp, by simp [isDigit], ?_⟩
    simp [decimalValue, Positional.value]
  · have hLength :
        (Nat.digits 10 v.toNat).length ≤ 12 := by
      rw [Nat.digits_length_le_iff (by omega)]
      have hBound := v.toNat_lt
      omega
    simp only [toChars, if_neg hZero, List.length_map,
      List.length_reverse, if_pos hLength, Option.getD_some]
    exact digits_numeral hZero

/- What is printed after the first is a dot and the rest. -/
theorem printSubids_dotted
    (v : UInt32)
    (subids : List UInt32) :
    Dotted (printSubids true (v :: subids)) (v :: subids) := by
  induction subids generalizing v with
  | nil =>
      have hOne := Dotted.one (toChars_numeral v)
      simpa [printSubids] using hOne
  | cons next subids ih =>
      have hMore := Dotted.cons (toChars_numeral v) (ih next)
      simpa [printSubids] using hMore

/-
  `parse` takes exactly the texts of its grammar and returns
  the numbers in them.  It undoes `toString` for an OID of
  one to 128 sub-identifiers and refuses the text of any
  other.
-/
theorem parse_grammar_and_print :
    (∀ s o, parse s = some o ↔ DottedText s o) ∧
      ∀ o : Oid,
        parse o.toString =
          if 1 ≤ o.size ∧ o.size ≤ 128 then some o
          else none := by
  refine ⟨fun s o => ⟨DottedText.of_parse,
    DottedText.parse_eq⟩, ?_⟩
  rintro ⟨subids⟩
  cases subids with
  | nil => rfl
  | cons v subids =>
      have hDotted := printSubids_dotted v subids
      rw [toString, hDotted.parse_eq.1]
      have hPos : 1 ≤ (v :: subids).length := by simp
      simp only [size, hPos, true_and]
      rfl

end Oid

end Snmpio
