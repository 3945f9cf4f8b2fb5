import Mathlib.Data.String.Basic
import McpTelegram.Messages.MediaPairs

/-!
# JSON texts

`json.dumps(…, separators=(",", ":"), sort_keys=True)`, which escapes everything that is not
printable ASCII, and `json.loads`.  Numbers with a fraction or an exponent, and the constants `NaN`
and `Infinity`, are refused by the parser here, because nothing that is stored has them; so is half
of a surrogate pair, which is no character.  What is printed is read back, with its keys sorted.
-/

namespace McpTelegram

namespace Json

/-! ## Printing -/

/-- Four hexadecimal digits. -/
def printHex (unit : ℕ) : List Char :=
  [(unit / 4096 % 16).digitChar, (unit / 256 % 16).digitChar, (unit / 16 % 16).digitChar,
    (unit % 16).digitChar]

/-- The escape of a UTF-16 unit. -/
def printUnit (unit : ℕ) : List Char := '\\' :: 'u' :: printHex unit

/-- A character in a text. -/
def printChar (char : Char) : List Char :=
  if char = '"' then ['\\', '"']
  else if char = '\\' then ['\\', '\\']
  else if char = '\n' then ['\\', 'n']
  else if char = '\r' then ['\\', 'r']
  else if char = '\t' then ['\\', 't']
  else if char = '\x0c' then ['\\', 'f']
  else if char = '\x08' then ['\\', 'b']
  else if 0x20 ≤ char.toNat ∧ char.toNat ≤ 0x7e then [char]
  else if char.toNat < 0x10000 then printUnit char.toNat
  else
    printUnit (0xD800 + (char.toNat - 0x10000) / 0x400) ++
      printUnit (0xDC00 + (char.toNat - 0x10000) % 0x400)

/-- A text. -/
def printText (text : String) : List Char := '"' :: (text.toList.flatMap printChar ++ ['"'])

mutual

/-- A value. -/
def print : Json → List Char
  | null => ['n', 'u', 'l', 'l']
  | bool true => ['t', 'r', 'u', 'e']
  | bool false => ['f', 'a', 'l', 's', 'e']
  | int value => value.repr.toList
  | float _ literal => literal.toList
  | constant name => name.toList
  | str text => printText text
  | arr items => '[' :: printItems items
  | obj pairs => '\x7b' :: printPairs pairs

/-- The items of an array, and the bracket behind them. -/
def printItems : List Json → List Char
  | [] => [']']
  | item :: items => print item ++ printMoreItems items

/-- The items behind an item. -/
def printMoreItems : List Json → List Char
  | [] => [']']
  | item :: items => ',' :: (print item ++ printMoreItems items)

/-- The pairs of an object, and the bracket behind them. -/
def printPairs : List (String × Json) → List Char
  | [] => ['\x7d']
  | (key, value) :: pairs => printText key ++ ':' :: (print value ++ printMorePairs pairs)

/-- The pairs behind a pair. -/
def printMorePairs : List (String × Json) → List Char
  | [] => ['\x7d']
  | (key, value) :: pairs =>
    ',' :: (printText key ++ ':' :: (print value ++ printMorePairs pairs))

end

/-- `json.dumps(…, separators=(",", ":"), sort_keys=True)`. -/
def dumps (value : Json) : String := String.ofList value.sortKeys.print

/-! ## Parsing -/

/-- What follows white space. -/
def skipSpace (chars : List Char) : List Char :=
  chars.dropWhile fun char => char = ' ' ∨ char = '\t' ∨ char = '\n' ∨ char = '\r'

/-- The value of a hexadecimal digit. -/
def hexValue (char : Char) : Option ℕ :=
  if '0' ≤ char ∧ char ≤ '9' then some (char.toNat - '0'.toNat)
  else if 'a' ≤ char ∧ char ≤ 'f' then some (char.toNat - 'a'.toNat + 10)
  else if 'A' ≤ char ∧ char ≤ 'F' then some (char.toNat - 'A'.toNat + 10)
  else none

/-- Four hexadecimal digits. -/
def parseHex : List Char → Option (ℕ × List Char)
  | a :: b :: c :: d :: rest =>
    match hexValue a, hexValue b, hexValue c, hexValue d with
    | some a, some b, some c, some d => some (((a * 16 + b) * 16 + c) * 16 + d, rest)
    | _, _, _, _ => none
  | _ => none

/-- The second half of a surrogate pair. -/
def parseLow (high : ℕ) : List Char → Option (Char × List Char)
  | '\\' :: 'u' :: rest =>
    match parseHex rest with
    | some (low, rest) =>
      if 0xDC00 ≤ low ∧ low < 0xE000 then
        some (Char.ofNat (0x10000 + (high - 0xD800) * 0x400 + (low - 0xDC00)), rest)
      else none
    | none => none
  | _ => none

/-- What follows a backslash. -/
def parseEscape : List Char → Option (Char × List Char)
  | '"' :: rest => some ('"', rest)
  | '\\' :: rest => some ('\\', rest)
  | '/' :: rest => some ('/', rest)
  | 'b' :: rest => some ('\x08', rest)
  | 'f' :: rest => some ('\x0c', rest)
  | 'n' :: rest => some ('\n', rest)
  | 'r' :: rest => some ('\r', rest)
  | 't' :: rest => some ('\t', rest)
  | 'u' :: rest =>
    match parseHex rest with
    | some (unit, rest) =>
      if unit < 0xD800 ∨ 0xE000 ≤ unit then some (Char.ofNat unit, rest)
      else if unit < 0xDC00 then parseLow unit rest
      else none
    | none => none
  | _ => none

/-- The characters of a text, up to the quote that ends it. -/
def parseText : ℕ → List Char → Option (List Char × List Char)
  | 0, _ => none
  | _ + 1, [] => none
  | fuel + 1, char :: rest =>
    if char = '"' then some ([], rest)
    else if char = '\\' then
      (parseEscape rest).bind fun escaped =>
        (parseText fuel escaped.2).map fun text => (escaped.1 :: text.1, text.2)
    else if char.toNat < 0x20 then none
    else (parseText fuel rest).map fun text => (char :: text.1, text.2)

/-- The digits of a number. -/
def parseDigits (chars : List Char) : Option (ℕ × List Char) :=
  let digits := chars.takeWhile Char.isDigit
  let rest := chars.dropWhile Char.isDigit
  if digits = [] ∨ digits.head? = some '0' ∧ digits ≠ ['0'] then none
  else if rest.head? = some '.' ∨ rest.head? = some 'e' ∨ rest.head? = some 'E' then none
  else some (Nat.ofDigitChars 10 digits 0, rest)

/-- A number. -/
def parseNumber : List Char → Option (Json × List Char)
  | '-' :: rest => (parseDigits rest).map fun number => (int (-number.1), number.2)
  | chars => (parseDigits chars).map fun number => (int number.1, number.2)

/-- A value that is neither a text nor an array nor an object. -/
def parseLiteral : List Char → Option (Json × List Char)
  | 'n' :: 'u' :: 'l' :: 'l' :: rest => some (null, rest)
  | 't' :: 'r' :: 'u' :: 'e' :: rest => some (bool true, rest)
  | 'f' :: 'a' :: 'l' :: 's' :: 'e' :: rest => some (bool false, rest)
  | chars => parseNumber chars

mutual

/-- A value, without white space before it. -/
def parseValue : ℕ → List Char → Option (Json × List Char)
  | 0, _ => none
  | fuel + 1, '"' :: rest =>
    (parseText fuel rest).map fun text => (str (String.ofList text.1), text.2)
  | fuel + 1, '[' :: rest =>
    match skipSpace rest with
    | ']' :: rest => some (arr [], rest)
    | rest => (parseItems fuel rest).map fun items => (arr items.1, items.2)
  | fuel + 1, '\x7b' :: rest =>
    match skipSpace rest with
    | '\x7d' :: rest => some (obj [], rest)
    | rest => (parsePairs fuel rest).map fun pairs => (obj pairs.1, pairs.2)
  | _ + 1, chars => parseLiteral chars

/-- One item or more, and the bracket behind them. -/
def parseItems : ℕ → List Char → Option (List Json × List Char)
  | 0, _ => none
  | fuel + 1, chars =>
    (parseValue fuel chars).bind fun item =>
      match skipSpace item.2 with
      | ']' :: rest => some ([item.1], rest)
      | ',' :: rest =>
        (parseItems fuel (skipSpace rest)).map fun items => (item.1 :: items.1, items.2)
      | _ => none

/-- One pair or more, and the bracket behind them. -/
def parsePairs : ℕ → List Char → Option (List (String × Json) × List Char)
  | fuel + 1, '"' :: chars =>
    (parseText fuel chars).bind fun key =>
      match skipSpace key.2 with
      | ':' :: rest =>
        (parseValue fuel (skipSpace rest)).bind fun value =>
          match skipSpace value.2 with
          | '\x7d' :: rest => some ([(String.ofList key.1, value.1)], rest)
          | ',' :: rest =>
            (parsePairs fuel (skipSpace rest)).map fun pairs =>
              ((String.ofList key.1, value.1) :: pairs.1, pairs.2)
          | _ => none
      | _ => none
  | _, _ => none

end

/-- `json.loads`; `none` when it raises. -/
def loads (text : String) : Option Json :=
  let chars := skipSpace text.toList
  match parseValue (chars.length + 1) chars with
  | some (value, rest) => if skipSpace rest = [] then some (value.load setLast) else none
  | none => none

/-! ## Texts are read back -/

theorem hexValue_digitChar : ∀ digit < 16, hexValue digit.digitChar = some digit := by decide

/-- Four hexadecimal digits are read back. -/
theorem parseHex_printHex {unit : ℕ} (h : unit < 0x10000) (rest : List Char) :
    parseHex (printHex unit ++ rest) = some (unit, rest) := by
  have hdigit : ∀ n, hexValue (n % 16).digitChar = some (n % 16) := fun n =>
    hexValue_digitChar _ (Nat.mod_lt n (by decide))
  simp only [printHex, List.cons_append, List.nil_append, parseHex, hdigit]
  have hunit : ((unit / 4096 % 16 * 16 + unit / 256 % 16) * 16 + unit / 16 % 16) * 16 + unit % 16 =
      unit := by omega
  rw [hunit]

/-- A character is no surrogate. -/
theorem toNat_valid (char : Char) :
    char.toNat < 0xD800 ∨ 0xE000 ≤ char.toNat ∧ char.toNat < 0x110000 := by
  rcases char.valid with hlow | ⟨hhigh, hlast⟩
  · exact .inl hlow
  · exact .inr ⟨hhigh, hlast⟩

/-- The escape of a character of the basic plane is read back. -/
theorem parseEscape_basic {char : Char} (h : char.toNat < 0x10000) (rest : List Char) :
    parseEscape ('u' :: (printHex char.toNat ++ rest)) = some (char, rest) := by
  have hvalid : char.toNat < 0xD800 ∨ 0xE000 ≤ char.toNat :=
    (toNat_valid char).imp_right And.left
  simp only [parseEscape, parseHex_printHex h, if_pos hvalid, Char.ofNat_toNat]

/-- The second half of a surrogate pair is read back. -/
theorem parseLow_printUnit (high : ℕ) {low : ℕ} (hlow : 0xDC00 ≤ low ∧ low < 0xE000)
    (rest : List Char) :
    parseLow high (printUnit low ++ rest) =
      some (Char.ofNat (0x10000 + (high - 0xD800) * 0x400 + (low - 0xDC00)), rest) := by
  have hlowHex := parseHex_printHex (show low < 0x10000 by omega) rest
  simp only [printUnit, List.cons_append, parseLow, hlowHex, if_pos hlow]

/-- A surrogate pair is read back. -/
theorem parseEscape_surrogates {high low : ℕ} (hhigh : 0xD800 ≤ high ∧ high < 0xDC00)
    (hlow : 0xDC00 ≤ low ∧ low < 0xE000) (rest : List Char) :
    parseEscape ('u' :: (printHex high ++ (printUnit low ++ rest))) =
      some (Char.ofNat (0x10000 + (high - 0xD800) * 0x400 + (low - 0xDC00)), rest) := by
  have hhighHex := parseHex_printHex (show high < 0x10000 by omega) (printUnit low ++ rest)
  have hsurrogate : ¬ (high < 0xD800 ∨ 0xE000 ≤ high) := by omega
  simp only [parseEscape, hhighHex, if_neg hsurrogate, if_pos hhigh.2, parseLow_printUnit high hlow]

/-- The two escapes of a character beyond the basic plane are read back. -/
theorem parseEscape_pair {char : Char} (h : 0x10000 ≤ char.toNat) (rest : List Char) :
    parseEscape ('u' :: (printHex (0xD800 + (char.toNat - 0x10000) / 0x400) ++
        (printUnit (0xDC00 + (char.toNat - 0x10000) % 0x400) ++ rest))) = some (char, rest) := by
  have hlast : char.toNat < 0x110000 := by
    rcases toNat_valid char with hlow | ⟨-, hlast⟩
    · omega
    · exact hlast
  have hchar : 0x10000 + (0xD800 + (char.toNat - 0x10000) / 0x400 - 0xD800) * 0x400 +
      (0xDC00 + (char.toNat - 0x10000) % 0x400 - 0xDC00) = char.toNat := by omega
  rw [parseEscape_surrogates (by omega) (by omega), hchar, Char.ofNat_toNat]

/-- A printed character is read back. -/
theorem parseText_printChar (fuel : ℕ) (char : Char) (rest : List Char) :
    parseText (fuel + 1) (printChar char ++ rest) =
      (parseText fuel rest).map fun text => (char :: text.1, text.2) := by
  rw [printChar]
  split_ifs with hquote hbackslash hn hr ht hf hb hprinted hbasic
  · subst hquote; rfl
  · subst hbackslash; rfl
  · subst hn; rfl
  · subst hr; rfl
  · subst ht; rfl
  · subst hf; rfl
  · subst hb; rfl
  · rw [List.cons_append, List.nil_append, parseText, if_neg hquote, if_neg hbackslash,
      if_neg (by omega)]
  · rw [printUnit, List.cons_append, List.cons_append, parseText, if_neg (by decide),
      if_pos rfl, parseEscape_basic hbasic]
    rfl
  · rw [printUnit, List.append_assoc, List.cons_append, List.cons_append, parseText,
      if_neg (by decide), if_pos rfl, parseEscape_pair (not_lt.mp hbasic)]
    rfl

/-- The characters of a text are read back. -/
theorem parseText_flatMap (chars rest : List Char) {fuel : ℕ} (h : chars.length < fuel) :
    parseText fuel (chars.flatMap printChar ++ '"' :: rest) = some (chars, rest) := by
  induction chars generalizing fuel with
  | nil =>
    obtain ⟨fuel, rfl⟩ := Nat.exists_eq_succ_of_ne_zero (Nat.ne_of_gt h)
    rfl
  | cons char chars ih =>
    rw [List.length_cons] at h
    obtain ⟨fuel, rfl⟩ := Nat.exists_eq_succ_of_ne_zero (Nat.ne_of_gt (Nat.zero_lt_of_lt h))
    rw [List.flatMap_cons, List.append_assoc, parseText_printChar, ih (by omega)]
    rfl

/-! ## Numbers are read back -/

/-- What may follow a value. -/
def Delimited (rest : List Char) : Prop :=
  ∀ char ∈ rest.head?, char = ',' ∨ char = ']' ∨ char = '\x7d'

/-- Only zero begins with the digit zero. -/
theorem head?_toDigits : ∀ number, (Nat.toDigits 10 number).head? = some '0' →
    Nat.toDigits 10 number = ['0'] := by
  intro number
  induction number using Nat.strong_induction_on with
  | _ number ih =>
    intro hzero
    by_cases hsmall : number < 10
    · rw [Nat.toDigits_of_lt_base hsmall] at hzero ⊢
      rw [List.head?_cons, Option.some.injEq] at hzero
      rw [hzero]
    · rw [Nat.toDigits_of_base_le (by decide) (not_lt.mp hsmall)] at hzero
      rw [List.head?_append_of_ne_nil _ Nat.toDigits_ne_nil] at hzero
      have hhead := ih (number / 10) (by omega) hzero
      have hvalue : Nat.ofDigitChars 10 (Nat.toDigits 10 (number / 10)) 0 = number / 10 :=
        Nat.ofDigitChars_ten_toDigits
      rw [hhead] at hvalue
      have : number / 10 = 0 := hvalue.symm.trans rfl
      omega

/-- Digits are read back. -/
theorem parseDigits_toDigits (number : ℕ) {rest : List Char} (hrest : Delimited rest) :
    parseDigits (Nat.toDigits 10 number ++ rest) = some (number, rest) := by
  have hdigits : ∀ char ∈ Nat.toDigits 10 number, char.isDigit = true := fun char hchar =>
    Nat.isDigit_of_mem_toDigits (by decide) (by decide) hchar
  have hhead : ∀ char ∈ rest.head?,
      char.isDigit = false ∧ char ≠ '.' ∧ char ≠ 'e' ∧ char ≠ 'E' := by
    intro char hchar
    rcases hrest char hchar with rfl | rfl | rfl <;> decide
  have htake : rest.takeWhile Char.isDigit = [] ∧ rest.dropWhile Char.isDigit = rest := by
    cases rest with
    | nil => exact ⟨rfl, rfl⟩
    | cons char rest =>
      have hnot := (hhead char rfl).1
      exact ⟨List.takeWhile_cons_of_neg (by rw [hnot]; decide),
        List.dropWhile_cons_of_neg (by rw [hnot]; decide)⟩
  have hnone : ¬ (rest.head? = some '.' ∨ rest.head? = some 'e' ∨ rest.head? = some 'E') := by
    rintro (h | h | h)
    · exact (hhead _ h).2.1 rfl
    · exact (hhead _ h).2.2.1 rfl
    · exact (hhead _ h).2.2.2 rfl
  have hzero : ¬ (Nat.toDigits 10 number = [] ∨
      (Nat.toDigits 10 number).head? = some '0' ∧ Nat.toDigits 10 number ≠ ['0']) := by
    rintro (hnil | ⟨hhead, hne⟩)
    · exact Nat.toDigits_ne_nil hnil
    · exact hne (head?_toDigits number hhead)
  rw [parseDigits, List.takeWhile_append_of_pos hdigits, List.dropWhile_append_of_pos hdigits,
    htake.1, htake.2, List.append_nil]
  simp only [if_neg hzero, if_neg hnone, Nat.ofDigitChars_ten_toDigits]

/-- The text of a number begins with a digit or a sign. -/
theorem repr_toList (value : ℤ) :
    (∃ number : ℕ, value = number ∧ value.repr.toList = Nat.toDigits 10 number) ∨
      ∃ number : ℕ, value = -number ∧ value.repr.toList = '-' :: Nat.toDigits 10 number := by
  cases value with
  | ofNat number => exact .inl ⟨number, rfl, Nat.toList_repr⟩
  | negSucc number =>
    refine .inr ⟨number + 1, rfl, ?_⟩
    show ("-" ++ (number + 1).repr).toList = _
    rw [String.toList_append, Nat.toList_repr]
    rfl

/-- The digits of a number begin with a digit. -/
theorem toDigits_cons (number : ℕ) :
    ∃ digit digits, Nat.toDigits 10 number = digit :: digits ∧ digit.isDigit = true := by
  have hne : Nat.toDigits 10 number ≠ [] := Nat.toDigits_ne_nil
  obtain ⟨digit, digits, heq⟩ := List.exists_cons_of_ne_nil hne
  have hmem : digit ∈ Nat.toDigits 10 number := by
    rw [heq]
    exact List.mem_cons_self
  exact ⟨digit, digits, heq, Nat.isDigit_of_mem_toDigits (by decide) (by decide) hmem⟩

/-- A number is read back. -/
theorem parseNumber_repr (value : ℤ) {rest : List Char} (hrest : Delimited rest) :
    parseNumber (value.repr.toList ++ rest) = some (int value, rest) := by
  rcases repr_toList value with ⟨number, hvalue, hprinted⟩ | ⟨number, hvalue, hprinted⟩
  · have hdigits := parseDigits_toDigits number hrest
    obtain ⟨digit, digits, heq, hdigit⟩ := toDigits_cons number
    have hsign : digit ≠ '-' := by
      rintro rfl
      exact absurd hdigit (by decide)
    rw [hprinted, heq, List.cons_append, parseNumber, ← List.cons_append, ← heq, hdigits, hvalue]
    · rfl
    · exact fun _ hcons => hsign (List.cons.inj hcons).1
  · rw [hprinted, List.cons_append, parseNumber, parseDigits_toDigits number hrest, hvalue]
    rfl

/-! ## Values are read back -/

mutual

/-- A value without numbers that are no integers, whose objects have distinct keys. -/
def Plain : Json → Prop
  | float _ _ => False
  | constant _ => False
  | arr items => PlainItems items
  | obj pairs => (pairs.map Prod.fst).Nodup ∧ PlainPairs pairs
  | _ => True

/-- `Plain` of the items of an array. -/
def PlainItems : List Json → Prop
  | [] => True
  | item :: items => Plain item ∧ PlainItems items

/-- `Plain` of the values of an object. -/
def PlainPairs : List (String × Json) → Prop
  | [] => True
  | (_, value) :: pairs => Plain value ∧ PlainPairs pairs

end

/-- The characters that a printed text takes. -/
theorem length_flatMap_printChar (chars : List Char) :
    chars.length ≤ (chars.flatMap printChar).length := by
  induction chars with
  | nil => exact Nat.zero_le _
  | cons char chars ih =>
    have hpos : 0 < (printChar char).length := by
      rw [printChar]
      split_ifs <;> simp [printUnit, printHex]
    rw [List.flatMap_cons, List.length_append, List.length_cons]
    omega

/-- A text is read back. -/
theorem parseText_printText (text : String) (rest : List Char) {fuel : ℕ}
    (h : (printText text).length ≤ fuel + 1) :
    parseText fuel (text.toList.flatMap printChar ++ '"' :: rest) = some (text.toList, rest) := by
  refine parseText_flatMap text.toList rest ?_
  have hle := length_flatMap_printChar text.toList
  rw [printText, List.length_cons, List.length_append, List.length_singleton] at h
  omega

/-- A number begins with a character that nothing else begins with. -/
theorem repr_cons (value : ℤ) : ∃ char chars, value.repr.toList = char :: chars ∧
    (char.isDigit = true ∨ char = '-') := by
  rcases repr_toList value with ⟨number, -, hprinted⟩ | ⟨number, -, hprinted⟩
  · obtain ⟨digit, digits, heq, hdigit⟩ := toDigits_cons number
    exact ⟨digit, digits, hprinted.trans heq, .inl hdigit⟩
  · exact ⟨_, _, hprinted, .inr rfl⟩

/-- A number is parsed as one. -/
theorem parseValue_repr (value : ℤ) (fuel : ℕ) {rest : List Char} (hrest : Delimited rest) :
    parseValue (fuel + 1) (value.repr.toList ++ rest) = some (int value, rest) := by
  obtain ⟨char, chars, hprinted, hchar⟩ := repr_cons value
  have hnumber := parseNumber_repr value hrest
  have hother : ∀ other : Char, other.isDigit = false → other ≠ '-' → char ≠ other := by
    rintro other hdigit hsign rfl
    rcases hchar with h | h
    · rw [hdigit] at h
      exact Bool.false_ne_true h
    · exact hsign h
  rw [hprinted, List.cons_append] at hnumber ⊢
  rw [parseValue, parseLiteral, hnumber]
  · exact fun _ h => hother 'n' (by decide) (by decide) (List.cons.inj h).1
  · exact fun _ h => hother 't' (by decide) (by decide) (List.cons.inj h).1
  · exact fun _ h => hother 'f' (by decide) (by decide) (List.cons.inj h).1
  · exact fun _ h => hother '"' (by decide) (by decide) (List.cons.inj h).1
  · exact fun _ h => hother '[' (by decide) (by decide) (List.cons.inj h).1
  · exact fun _ h => hother '\x7b' (by decide) (by decide) (List.cons.inj h).1

/-- A printed value begins with no space and no closing bracket. -/
theorem print_cons {value : Json} (hplain : value.Plain) :
    ∃ char chars, value.print = char :: chars ∧ char ≠ ' ' ∧ char ≠ '\t' ∧ char ≠ '\n' ∧
      char ≠ '\r' ∧ char ≠ ']' := by
  cases value with
  | null => exact ⟨'n', _, rfl, by decide⟩
  | bool value =>
    cases value with
    | true => exact ⟨'t', _, rfl, by decide⟩
    | false => exact ⟨'f', _, rfl, by decide⟩
  | int value =>
    obtain ⟨char, chars, hprinted, hchar⟩ := repr_cons value
    refine ⟨char, chars, hprinted, ?_⟩
    rcases hchar with hdigit | rfl
    · refine ⟨?_, ?_, ?_, ?_, ?_⟩ <;>
      · rintro rfl
        exact absurd hdigit (by decide)
    · decide
  | float _ _ => exact hplain.elim
  | constant _ => exact hplain.elim
  | str text => exact ⟨'"', _, rfl, by decide⟩
  | arr items => exact ⟨'[', _, rfl, by decide⟩
  | obj pairs => exact ⟨'\x7b', _, rfl, by decide⟩

/-- No space is skipped before a printed value. -/
theorem skipSpace_print {value : Json} (hplain : value.Plain) (rest : List Char) :
    skipSpace (value.print ++ rest) = value.print ++ rest := by
  obtain ⟨char, chars, hprinted, hspace, htab, hline, hreturn, -⟩ := print_cons hplain
  rw [hprinted, List.cons_append, skipSpace, List.dropWhile_cons_of_neg]
  simp [hspace, htab, hline, hreturn]

/-- What follows an item or a value is delimited. -/
theorem delimited_cons {char : Char} (h : char = ',' ∨ char = ']' ∨ char = '\x7d')
    (rest : List Char) : Delimited (char :: rest) := by
  intro other hother
  rw [List.head?_cons, Option.mem_some] at hother
  exact hother ▸ h

/-- An array is parsed through its items. -/
theorem parseValue_arr {item : Json} (hplain : item.Plain) (fuel : ℕ) (rest : List Char) :
    parseValue (fuel + 1) ('[' :: (item.print ++ rest)) =
      (parseItems fuel (item.print ++ rest)).map fun items => (arr items.1, items.2) := by
  obtain ⟨char, chars, hprinted, -, -, -, -, hbracket⟩ := print_cons hplain
  rw [parseValue, skipSpace_print hplain, hprinted, List.cons_append]
  split
  next heq => exact absurd (List.cons.inj heq).1 hbracket
  next => rfl

/-- A pair is parsed through its value. -/
theorem parsePairs_printText (key : String) (value : Json) (fuel : ℕ) (rest : List Char)
    (hplain : value.Plain) (hfuel : (printText key).length ≤ fuel + 1) :
    parsePairs (fuel + 1) (printText key ++ ':' :: (value.print ++ rest)) =
      (parseValue fuel (value.print ++ rest)).bind fun value =>
        match skipSpace value.2 with
        | '\x7d' :: rest => some ([(key, value.1)], rest)
        | ',' :: rest =>
          (parsePairs fuel (skipSpace rest)).map fun pairs => ((key, value.1) :: pairs.1, pairs.2)
        | _ => none := by
  rw [printText, List.cons_append, List.append_assoc, List.singleton_append, parsePairs,
    parseText_printText key _ hfuel, Option.bind_some]
  simp only [String.ofList_toList]
  show (parseValue fuel (skipSpace (value.print ++ rest))).bind _ = _
  rw [skipSpace_print hplain]

mutual

/-- A printed value is read back. -/
theorem parseValue_print : ∀ (value : Json) (fuel : ℕ) (rest : List Char), value.Plain →
    Delimited rest → value.print.length < fuel →
      parseValue fuel (value.print ++ rest) = some (value, rest)
  | null, fuel + 1, rest, _, _, _ => rfl
  | bool true, fuel + 1, rest, _, _, _ => rfl
  | bool false, fuel + 1, rest, _, _, _ => rfl
  | int value, fuel + 1, rest, _, hrest, _ => parseValue_repr value fuel hrest
  | str text, fuel + 1, rest, _, _, hfuel => by
    rw [print] at hfuel ⊢
    rw [printText, List.cons_append, List.append_assoc, parseValue, List.singleton_append,
      parseText_printText text rest (by omega), Option.map_some, String.ofList_toList]
  | arr [], fuel + 1, rest, _, _, _ => rfl
  | arr (item :: items), fuel + 1, rest, hplain, _, hfuel => by
    rw [print, List.length_cons] at hfuel
    have hitems := parseItems_print (item :: items) fuel rest hplain (List.cons_ne_nil _ _)
      (by omega)
    rw [print, printItems, List.append_assoc] at *
    rw [List.cons_append, List.append_assoc, parseValue_arr hplain.1, hitems, Option.map_some]
  | obj [], fuel + 1, rest, _, _, _ => rfl
  | obj ((key, value) :: pairs), fuel + 1, rest, hplain, _, hfuel => by
    rw [print, List.length_cons] at hfuel
    have hpairs := parsePairs_print ((key, value) :: pairs) fuel rest hplain.2
      (List.cons_ne_nil _ _) (by omega)
    rw [print, List.cons_append, parseValue]
    show (parsePairs fuel (printPairs ((key, value) :: pairs) ++ rest)).map _ = _
    rw [hpairs, Option.map_some]
  | value, 0, _, _, _, hfuel => absurd hfuel (Nat.not_lt_zero _)
  | float _ _, _ + 1, _, hplain, _, _ => hplain.elim
  | constant _, _ + 1, _, hplain, _, _ => hplain.elim

/-- The printed items of an array are read back. -/
theorem parseItems_print : ∀ (items : List Json) (fuel : ℕ) (rest : List Char),
    PlainItems items → items ≠ [] → (printItems items).length < fuel →
      parseItems fuel (printItems items ++ rest) = some (items, rest)
  | [], _, _, _, hne, _ => absurd rfl hne
  | item :: items, 0, _, _, _, hfuel => absurd hfuel (Nat.not_lt_zero _)
  | [item], fuel + 1, rest, hplain, _, hfuel => by
    rw [printItems, printMoreItems, List.length_append, List.length_singleton] at hfuel
    have hitem := parseValue_print item fuel (']' :: rest) hplain.1
      (delimited_cons (.inr (.inl rfl)) rest) (by omega)
    rw [printItems, printMoreItems, List.append_assoc, List.singleton_append, parseItems, hitem]
    rfl
  | item :: next :: items, fuel + 1, rest, hplain, _, hfuel => by
    rw [printItems, printMoreItems, List.length_append, List.length_cons] at hfuel
    have hitem := parseValue_print item fuel (',' :: (printItems (next :: items) ++ rest)) hplain.1
      (delimited_cons (.inl rfl) _) (by omega)
    have hitems := parseItems_print (next :: items) fuel rest hplain.2 (List.cons_ne_nil _ _)
      (by rw [printItems]; omega)
    have hskip : skipSpace (printItems (next :: items) ++ rest) =
        printItems (next :: items) ++ rest := by
      rw [printItems, List.append_assoc, skipSpace_print hplain.2.1]
    have hprinted : printItems (item :: next :: items) ++ rest =
        item.print ++ ',' :: (printItems (next :: items) ++ rest) := by
      simp only [printItems, printMoreItems, List.append_assoc, List.cons_append]
    rw [hprinted, parseItems, hitem, Option.bind_some]
    show (parseItems fuel (skipSpace (printItems (next :: items) ++ rest))).map _ = _
    rw [hskip, hitems, Option.map_some]

/-- The printed pairs of an object are read back. -/
theorem parsePairs_print : ∀ (pairs : List (String × Json)) (fuel : ℕ) (rest : List Char),
    PlainPairs pairs → pairs ≠ [] → (printPairs pairs).length < fuel →
      parsePairs fuel (printPairs pairs ++ rest) = some (pairs, rest)
  | [], _, _, _, hne, _ => absurd rfl hne
  | pair :: pairs, 0, _, _, _, hfuel => absurd hfuel (Nat.not_lt_zero _)
  | [(key, value)], fuel + 1, rest, hplain, _, hfuel => by
    have hprinted := parsePairs_printText key value fuel ('\x7d' :: rest) hplain.1
    rw [printPairs, printMorePairs, List.length_append, List.length_cons, List.length_append,
      List.length_singleton] at hfuel
    have hvalue := parseValue_print value fuel ('\x7d' :: rest) hplain.1
      (delimited_cons (.inr (.inr rfl)) rest) (by omega)
    rw [hvalue, Option.bind_some] at hprinted
    simp only [printPairs, printMorePairs, List.append_assoc, List.cons_append, List.nil_append]
    exact hprinted (by omega)
  | (key, value) :: next :: pairs, fuel + 1, rest, hplain, _, hfuel => by
    have hprinted := parsePairs_printText key value fuel
      (',' :: (printPairs (next :: pairs) ++ rest)) hplain.1
    rw [printPairs, printMorePairs, List.length_append, List.length_cons, List.length_append,
      List.length_cons] at hfuel
    have hvalue := parseValue_print value fuel (',' :: (printPairs (next :: pairs) ++ rest))
      hplain.1 (delimited_cons (.inl rfl) _) (by omega)
    have hpairs := parsePairs_print (next :: pairs) fuel rest hplain.2 (List.cons_ne_nil _ _)
      (by rw [printPairs]; omega)
    have hskip : skipSpace (printPairs (next :: pairs) ++ rest) =
        printPairs (next :: pairs) ++ rest := rfl
    rw [hvalue, Option.bind_some] at hprinted
    have hall : printPairs ((key, value) :: next :: pairs) ++ rest =
        printText key ++ ':' :: (value.print ++ ',' :: (printPairs (next :: pairs) ++ rest)) := by
      simp only [printPairs, printMorePairs, List.append_assoc, List.cons_append]
    rw [hall, hprinted (by omega)]
    show (parsePairs fuel (skipSpace (printPairs (next :: pairs) ++ rest))).map _ = _
    rw [hskip, hpairs, Option.map_some]

end

/-! ## Loading what was dumped -/

/-- A dictionary that is built of distinct keys has just the pairs. -/
theorem build_setLast_of_nodup {pairs : List (String × Json)}
    (hkeys : (pairs.map Prod.fst).Nodup) : build setLast pairs = pairs := by
  suffices h : ∀ dict : List (String × Json), ((dict ++ pairs).map Prod.fst).Nodup →
      pairs.foldl (fun dict pair => setLast dict pair.1 pair.2) dict = dict ++ pairs from
    h [] hkeys
  clear hkeys
  induction pairs with
  | nil => exact fun dict _ => (List.append_nil dict).symm
  | cons pair pairs ih =>
    intro dict hkeys
    have hfresh : ¬ dict.any (fun known => known.1 == pair.1) = true := by
      rw [List.any_eq_true]
      rintro ⟨known, hknown, hsame⟩
      rw [List.map_append, List.nodup_append] at hkeys
      exact hkeys.2.2 known.1 (List.mem_map_of_mem hknown) pair.1
        (List.mem_map_of_mem List.mem_cons_self) (beq_iff_eq.mp hsame)
    have happend : dict ++ pair :: pairs = dict ++ [pair] ++ pairs := by
      rw [List.append_assoc, List.singleton_append]
    rw [happend] at hkeys
    rw [List.foldl_cons, setLast, if_neg hfresh, ih _ hkeys, happend]

mutual

/-- Loading changes no plain value. -/
theorem load_of_plain : ∀ value : Json, value.Plain → value.load setLast = value
  | null, _ => rfl
  | bool _, _ => rfl
  | int _, _ => rfl
  | str _, _ => rfl
  | arr items, h => by rw [load, loadItems_of_plain items h]
  | obj pairs, h => by rw [load, loadPairs_of_plain pairs h.2, build_setLast_of_nodup h.1]
  | float _ _, h => h.elim
  | constant _, h => h.elim

/-- Loading changes no plain items. -/
theorem loadItems_of_plain : ∀ items : List Json, PlainItems items →
    loadItems setLast items = items
  | [], _ => rfl
  | item :: items, h => by rw [loadItems, load_of_plain item h.1, loadItems_of_plain items h.2]

/-- Loading changes no plain pairs. -/
theorem loadPairs_of_plain : ∀ pairs : List (String × Json), PlainPairs pairs →
    loadPairs setLast pairs = pairs
  | [], _ => rfl
  | (key, value) :: pairs, h => by
    rw [loadPairs, load_of_plain value h.1, loadPairs_of_plain pairs h.2]

end

/-- Plain items, one by one. -/
theorem plainItems_iff {items : List Json} : PlainItems items ↔ ∀ item ∈ items, item.Plain := by
  induction items with
  | nil => exact iff_of_true trivial fun _ h => absurd h List.not_mem_nil
  | cons item items ih => rw [PlainItems, ih, List.forall_mem_cons]

/-- Plain pairs, one by one. -/
theorem plainPairs_iff {pairs : List (String × Json)} :
    PlainPairs pairs ↔ ∀ pair ∈ pairs, pair.2.Plain := by
  induction pairs with
  | nil => exact iff_of_true trivial fun _ h => absurd h List.not_mem_nil
  | cons pair pairs ih => rw [PlainPairs, ih, List.forall_mem_cons]

/-- Sorting the values of an object keeps its keys. -/
theorem map_fst_sortKeysPairs (pairs : List (String × Json)) :
    (sortKeysPairs pairs).map Prod.fst = pairs.map Prod.fst := by
  induction pairs with
  | nil => rfl
  | cons pair pairs ih => rw [sortKeysPairs, List.map_cons, List.map_cons, ih]

mutual

/-- Sorting keeps a value plain. -/
theorem plain_sortKeys : ∀ value : Json, value.Plain → value.sortKeys.Plain
  | null, _ => trivial
  | bool _, _ => trivial
  | int _, _ => trivial
  | str _, _ => trivial
  | arr items, h => plainItems_sortKeys items h
  | obj pairs, h => by
    have hperm := List.perm_insertionSort (fun p q : String × Json => p.1 ≤ q.1)
      (sortKeysPairs pairs)
    refine ⟨?_, plainPairs_iff.mpr fun pair hpair => ?_⟩
    · rw [(hperm.map Prod.fst).nodup_iff, map_fst_sortKeysPairs]
      exact h.1
    · exact plainPairs_iff.mp (plainPairs_sortKeys pairs h.2) pair (hperm.mem_iff.mp hpair)
  | float _ _, h => h.elim
  | constant _, h => h.elim

/-- Sorting keeps items plain. -/
theorem plainItems_sortKeys : ∀ items : List Json, PlainItems items →
    PlainItems (sortKeysItems items)
  | [], _ => trivial
  | item :: items, h => ⟨plain_sortKeys item h.1, plainItems_sortKeys items h.2⟩

/-- Sorting keeps pairs plain. -/
theorem plainPairs_sortKeys : ∀ pairs : List (String × Json), PlainPairs pairs →
    PlainPairs (sortKeysPairs pairs)
  | [], _ => trivial
  | (_, value) :: pairs, h => ⟨plain_sortKeys value h.1, plainPairs_sortKeys pairs h.2⟩

end

/-- What was dumped is loaded, with its keys sorted. -/
theorem loads_dumps {value : Json} (h : value.Plain) : loads value.dumps = some value.sortKeys := by
  have hplain := plain_sortKeys value h
  have hskip : skipSpace value.sortKeys.print = value.sortKeys.print := by
    have hprinted := skipSpace_print hplain []
    rwa [List.append_nil] at hprinted
  have hparsed := parseValue_print value.sortKeys (value.sortKeys.print.length + 1) [] hplain
    (fun _ hchar => absurd hchar (Option.not_mem_none _)) (Nat.lt_succ_self _)
  rw [List.append_nil] at hparsed
  rw [loads, dumps, String.toList_ofList, hskip, hparsed]
  show some (value.sortKeys.load setLast) = _
  rw [load_of_plain _ hplain]

end Json

end McpTelegram
