import DistributedNas.Library.Numeral
import Mathlib.Data.List.TakeWhile

/-
This file reads the command line of `busexmp`, and it proves which sizes the program accepts.
-/

namespace DistributedNas.Buse
open Library

/-- These characters are the white space of the C locale. -/
def isSpace (char : Char) : Bool := [' ', '\t', '\n', '\x0b', '\x0c', '\r'].contains char

/-- A numeral may have a sign. -/
inductive Sign where
  | absent
  | plus
  | minus
  deriving DecidableEq, Repr

/-- The mark of a numeral selects its base, and the zero of an octal numeral is a digit of it. -/
inductive Radix where
  | decimal
  | octal
  | hexadecimal (capital : Bool)
  deriving DecidableEq, Repr

/-- A size in bytes may have one of three units. -/
inductive Suffix where
  | absent
  | kilo
  | mega
  | giga
  deriving DecidableEq, Repr

def Sign.text : Sign → List Char
  | .absent => []
  | .plus => ['+']
  | .minus => ['-']

def Radix.base : Radix → Nat
  | .decimal => 10
  | .octal => 8
  | .hexadecimal _ => 16

def Radix.mark : Radix → List Char
  | .decimal => []
  | .octal => []
  | .hexadecimal false => ['0', 'x']
  | .hexadecimal true => ['0', 'X']

def Suffix.text : Suffix → List Char
  | .absent => []
  | .kilo => ['K']
  | .mega => ['M']
  | .giga => ['G']

def Suffix.factor : Suffix → UInt64
  | .absent => 1
  | .kilo => 1024
  | .mega => 1024 * 1024
  | .giga => 1024 * 1024 * 1024

/-- `strtoull` reads at most one sign. -/
def takeSign : List Char → Sign × List Char
  | '+' :: rest => (.plus, rest)
  | '-' :: rest => (.minus, rest)
  | text => (.absent, text)

/-- `strtoull` reads a mark of base 16 only before a digit of this base. -/
def takeRadix : List Char → Radix × List Char
  | '0' :: mark :: digit :: rest =>
      if mark = 'x' ∧ isDigitIn 16 digit then (.hexadecimal false, digit :: rest)
      else if mark = 'X' ∧ isDigitIn 16 digit then (.hexadecimal true, digit :: rest)
      else (.octal, '0' :: mark :: digit :: rest)
  | '0' :: rest => (.octal, '0' :: rest)
  | text => (.decimal, text)

/-- A value beyond the type becomes its maximum, and a minus sign negates any other value in the type. -/
def converted (sign : Sign) (value : Nat) : UInt64 :=
  if UInt64.size ≤ value then UInt64.ofNat (UInt64.size - 1)
  else if sign = .minus then - UInt64.ofNat value
  else UInt64.ofNat value

/-- `strtoull` with base zero returns the whole text as the rest if it reads no digit. -/
def strtoull (text : List Char) : UInt64 × List Char :=
  let signed := takeSign (text.dropWhile isSpace)
  let number := takeRadix signed.2
  let digits := number.2.takeWhile (isDigitIn number.1.base)
  if digits = [] then (0, text)
  else (converted signed.1 (valueOf number.1.base digits), number.2.dropWhile (isDigitIn number.1.base))

/-- The character at the end of the number may be a unit, and the product stays in the type. -/
def strtoullWithPrefix (text : List Char) : UInt64 × List Char :=
  match strtoull text with
  | (v, 'K' :: rest) => (v * 1024, rest)
  | (v, 'M' :: rest) => (v * (1024 * 1024), rest)
  | (v, 'G' :: rest) => (v * (1024 * 1024 * 1024), rest)
  | (v, rest) => (v, rest)

/-- `parse_opt` fills this structure. -/
structure Arguments where
  size : UInt64
  device : Option (List Char)
  verbose : Bool
  deriving DecidableEq, Repr

/-- `argp_parse` calls `parse_opt` with one of these keys. -/
inductive Key where
  | verbose
  | keyArg (text : List Char)
  | keyEnd
  | other
  deriving DecidableEq, Repr

/-- The program ends with one of these errors, or the library rejects the argument. -/
inductive Rejection where
  | sizeMustBeAnInteger
  | notEnoughArguments
  | failedToAlloc
  | argpErrUnknown
  deriving DecidableEq, Repr

/-- This is the parser of a single option. -/
def parseOpt (key : Key) (argNum : Nat) (arguments : Arguments) : Except Rejection Arguments :=
  match key with
  | .verbose => .ok { arguments with verbose := true }
  | .keyArg text =>
      match argNum with
      | 0 =>
          match strtoullWithPrefix text with
          | (size, []) => .ok { arguments with size := size }
          | _ => .error .sizeMustBeAnInteger
      | 1 => .ok { arguments with device := some text }
      | _ => .error .argpErrUnknown
  | .keyEnd => if argNum < 2 then .error .notEnoughArguments else .ok arguments
  | .other => .error .argpErrUnknown

/-- `argp_parse` takes a word of the command line as the option of the program or as an argument. -/
inductive CommandWord where
  | verbose
  | argument (text : List Char)
  deriving DecidableEq, Repr

/-- A word with a dash and more is meant as an option. -/
def isOption : List Char → Bool
  | '-' :: _ :: _ => true
  | _ => false

/-- The option has one letter, which may be repeated, and a name, which may be cut. -/
def isVerbose : List Char → Bool
  | '-' :: '-' :: name => !name.isEmpty && name.isPrefixOf ['v', 'e', 'r', 'b', 'o', 's', 'e']
  | '-' :: letters => !letters.isEmpty && letters.all (· = 'v')
  | _ => false

/-- Options may stand behind arguments up to two dashes, since `POSIXLY_CORRECT` is not set.
A line with another option, such as the one for help, has no words here. -/
def commandWords : List (List Char) → Option (List CommandWord)
  | [] => some []
  | word :: rest =>
      if word = ['-', '-'] then some (rest.map .argument)
      else if isVerbose word then (commandWords rest).map (.verbose :: ·)
      else if isOption word then none
      else (commandWords rest).map (.argument word :: ·)

/-- `argp_parse` numbers the arguments in their order and ends with the key of the end. -/
def argpParse : List CommandWord → Nat → Arguments → Except Rejection Arguments
  | [], argNum, arguments => parseOpt .keyEnd argNum arguments
  | .verbose :: rest, argNum, arguments => do
      let after ← parseOpt .verbose argNum arguments
      argpParse rest argNum after
  | .argument text :: rest, argNum, arguments => do
      let after ← parseOpt (.keyArg text) argNum arguments
      argpParse rest (argNum + 1) after

/-- The arguments of the program begin with zeros. -/
def mainArguments (words : List CommandWord) : Except Rejection Arguments := argpParse words 0 ⟨0, none, false⟩

/-- The first digit of a numeral fits its mark. -/
def Radix.Begins : Radix → Char → Prop
  | .decimal, first => first ≠ '0'
  | .octal, first => first = '0'
  | .hexadecimal _, _ => True

/-- A numeral has white space, a sign, a mark, and at least one digit of its base. -/
structure Numeral where
  spaces : List Char
  sign : Sign
  radix : Radix
  first : Char
  later : List Char
  blank : ∀ char ∈ spaces, isSpace char
  inBase : ∀ digit ∈ first :: later, isDigitIn radix.base digit
  begins : radix.Begins first

namespace Numeral
variable (numeral : Numeral)

def text : List Char :=
  numeral.spaces ++ (numeral.sign.text ++ (numeral.radix.mark ++ numeral.first :: numeral.later))

def value : UInt64 := converted numeral.sign (valueOf numeral.radix.base (numeral.first :: numeral.later))

end Numeral

/-- A size is a numeral with a unit, and a unit or an empty text alone is the size zero. -/
def IsSize (text : List Char) (size : UInt64) : Prop :=
  (∃ (numeral : Numeral) (suffix : Suffix), text = numeral.text ++ suffix.text ∧ size = numeral.value * suffix.factor) ∨
    ∃ suffix : Suffix, text = suffix.text ∧ size = 0

theorem digitOf_of_isSpace {char : Char} (space : isSpace char) : digitOf char = 36 := by
  have inside : char ∈ [' ', '\t', '\n', '\x0b', '\x0c', '\r'] := List.contains_iff_mem.mp space
  fin_cases inside <;> decide

theorem isSpace_of_digitOf {char : Char} (digit : digitOf char < 36) : isSpace char = false := by
  apply Bool.eq_false_iff.mpr
  intro space
  rw [digitOf_of_isSpace space] at digit
  exact lt_irrefl _ digit

/-- The bases of the numerals have only letters and digits. -/
theorem digitOf_of_isDigitIn {radix : Radix} {char : Char} (digit : isDigitIn radix.base char) : digitOf char < 16 := by
  have small : digitOf char < radix.base := of_decide_eq_true digit
  cases radix with
  | decimal => exact small.trans (by decide)
  | octal => exact small.trans (by decide)
  | hexadecimal capital => exact small

/-- A unit ends the digits of each base. -/
theorem isDigitIn_head_suffix (suffix : Suffix) (radix : Radix) :
    ∀ char ∈ suffix.text.head?, isDigitIn radix.base char = false := by
  intro char member
  cases suffix with
  | absent => cases member
  | kilo =>
      obtain rfl : 'K' = char := Option.some.inj member
      rcases radix with _ | _ | _ <;> rfl
  | mega =>
      obtain rfl : 'M' = char := Option.some.inj member
      rcases radix with _ | _ | _ <;> rfl
  | giga =>
      obtain rfl : 'G' = char := Option.some.inj member
      rcases radix with _ | _ | _ <;> rfl

theorem takeSign_text (sign : Sign) {lead : Char} (rest : List Char) (digit : digitOf lead < 36) :
    takeSign (sign.text ++ lead :: rest) = (sign, lead :: rest) := by
  cases sign with
  | plus => rfl
  | minus => rfl
  | absent =>
      rw [Sign.text, List.nil_append]
      unfold takeSign
      split
      · next same =>
          obtain ⟨rfl, -⟩ := List.cons.inj same
          exact absurd digit (by decide)
      · next same =>
          obtain ⟨rfl, -⟩ := List.cons.inj same
          exact absurd digit (by decide)
      · rfl

/-- The sign and the rest make up the text. -/
theorem takeSign_append (text : List Char) : (takeSign text).1.text ++ (takeSign text).2 = text := by
  unfold takeSign
  split <;> rfl

/-- The mark and the rest make up the text. -/
theorem takeRadix_append (text : List Char) : (takeRadix text).1.mark ++ (takeRadix text).2 = text := by
  unfold takeRadix
  split
  · split
    · next marked =>
        rw [marked.1]
        rfl
    · split
      · next marked =>
          rw [marked.1]
          rfl
      · rfl
  · rfl
  · rfl

/-- The first digit after the mark fits it. -/
theorem takeRadix_begins (text : List Char) {first : Char} (head : (takeRadix text).2.head? = some first) :
    (takeRadix text).1.Begins first := by
  unfold takeRadix at head ⊢
  split at head
  · split at head
    · next marked =>
        rw [if_pos marked]
        trivial
    · next unmarked =>
        rw [if_neg unmarked]
        split at head
        · next marked =>
            rw [if_pos marked]
            trivial
        · next other =>
            rw [if_neg other]
            exact (Option.some.inj head).symm
  · exact (Option.some.inj head).symm
  · next other =>
      intro zero
      rw [zero] at head
      obtain ⟨rest, rfl⟩ := List.head?_eq_some_iff.mp head
      exact other rest rfl

/-- A mark is read before its digits if no mark of base 16 follows a leading zero. -/
theorem takeRadix_mark {radix : Radix} {first : Char} {rest : List Char} (begins : radix.Begins first)
    (digit : isDigitIn radix.base first) (unmarked : ∀ char ∈ rest.head?, digitOf char < 33) :
    takeRadix (radix.mark ++ first :: rest) = (radix, first :: rest) := by
  cases radix with
  | decimal =>
      rw [Radix.mark, List.nil_append]
      unfold takeRadix
      split
      · next same => exact absurd (List.cons.inj same).1 begins
      · next same => exact absurd (List.cons.inj same).1 begins
      · rfl
  | octal =>
      obtain rfl : first = '0' := begins
      rw [Radix.mark, List.nil_append]
      unfold takeRadix
      split
      · next mark second later same =>
          rw [(List.cons.inj same).2] at unmarked
          have small := unmarked mark rfl
          rw [if_neg, if_neg, (List.cons.inj same).2]
          · rintro ⟨rfl, -⟩
            exact absurd small (by decide)
          · rintro ⟨rfl, -⟩
            exact absurd small (by decide)
      · next same => rw [(List.cons.inj same).2]
      · next other => exact absurd rfl (other rest)
  | hexadecimal capital =>
      cases capital with
      | false => exact if_pos ⟨rfl, digit⟩
      | true =>
          rw [Radix.mark, List.cons_append, List.cons_append, List.nil_append, takeRadix, if_neg, if_pos ⟨rfl, digit⟩]
          rintro ⟨same, -⟩
          exact absurd same (by decide)

/-- No mark of base 16 follows the digits of a numeral. -/
theorem Numeral.digitOf_head_later (numeral : Numeral) (suffix : Suffix) :
    ∀ char ∈ (numeral.later ++ suffix.text).head?, digitOf char < 33 := by
  intro char member
  cases shape : numeral.later with
  | nil =>
      rw [shape, List.nil_append] at member
      cases suffix with
      | absent => cases member
      | kilo =>
          obtain rfl : 'K' = char := Option.some.inj member
          decide
      | mega =>
          obtain rfl : 'M' = char := Option.some.inj member
          decide
      | giga =>
          obtain rfl : 'G' = char := Option.some.inj member
          decide
  | cons second rest =>
      rw [shape, List.cons_append] at member
      obtain rfl : second = char := Option.some.inj member
      have inside : second ∈ numeral.first :: numeral.later := by
        rw [shape]
        exact List.mem_cons_of_mem _ List.mem_cons_self
      exact (digitOf_of_isDigitIn (numeral.inBase second inside)).trans (by decide)

/-- The first character after the white space and the sign is a digit. -/
theorem Numeral.mark_eq_cons (numeral : Numeral) (rest : List Char) :
    ∃ lead later, numeral.radix.mark ++ numeral.first :: rest = lead :: later ∧ digitOf lead < 36 := by
  have first := digitOf_of_isDigitIn (numeral.inBase numeral.first List.mem_cons_self)
  rcases numeral.radix with _ | _ | _ | _
  · exact ⟨numeral.first, rest, rfl, first.trans (by decide)⟩
  · exact ⟨numeral.first, rest, rfl, first.trans (by decide)⟩
  · exact ⟨'0', 'x' :: numeral.first :: rest, rfl, by decide⟩
  · exact ⟨'0', 'X' :: numeral.first :: rest, rfl, by decide⟩

theorem Sign.isSpace_head_text (sign : Sign) {lead : Char} (rest : List Char) (digit : digitOf lead < 36) :
    ∀ char ∈ (sign.text ++ lead :: rest).head?, isSpace char = false := by
  intro char member
  cases sign with
  | absent =>
      obtain rfl : lead = char := Option.some.inj member
      exact isSpace_of_digitOf digit
  | plus =>
      obtain rfl : '+' = char := Option.some.inj member
      rfl
  | minus =>
      obtain rfl : '-' = char := Option.some.inj member
      rfl

/-- A numeral with a unit is read up to the unit. -/
theorem strtoull_numeral (numeral : Numeral) (suffix : Suffix) :
    strtoull (numeral.text ++ suffix.text) = (numeral.value, suffix.text) := by
  obtain ⟨lead, later, shape, digit⟩ := numeral.mark_eq_cons (numeral.later ++ suffix.text)
  have spaces : (numeral.text ++ suffix.text).dropWhile isSpace = numeral.sign.text ++ lead :: later := by
    rw [Numeral.text, List.append_assoc, List.append_assoc, List.append_assoc, List.cons_append, shape]
    exact (takeWhile_append_stop numeral.blank (numeral.sign.isSpace_head_text later digit)).2
  have radix := takeRadix_mark numeral.begins (numeral.inBase numeral.first List.mem_cons_self)
    (numeral.digitOf_head_later suffix)
  obtain ⟨digits, rest⟩ := takeWhile_append_stop numeral.inBase (isDigitIn_head_suffix suffix numeral.radix)
  rw [List.cons_append] at digits rest
  rw [strtoull, spaces]
  simp only [takeSign_text numeral.sign later digit]
  rw [← shape]
  simp only [radix, digits, rest, Numeral.value, if_neg (List.cons_ne_nil numeral.first numeral.later)]

/-- A text without a number is its own rest, and any other text begins with a numeral. -/
theorem strtoull_cases (text : List Char) :
    strtoull text = (0, text) ∨ ∃ numeral : Numeral, text = numeral.text ++ (strtoull text).2 ∧
      (strtoull text).1 = numeral.value := by
  have spaces := List.takeWhile_append_dropWhile (p := isSpace) (l := text)
  generalize signed : takeSign (text.dropWhile isSpace) = sign at *
  generalize number : takeRadix sign.2 = radix at *
  have digits := List.takeWhile_append_dropWhile (p := isDigitIn radix.1.base) (l := radix.2)
  unfold strtoull
  simp only [signed, number]
  cases shape : radix.2.takeWhile (isDigitIn radix.1.base) with
  | nil => exact .inl (if_pos rfl)
  | cons first later =>
      rw [if_neg (List.cons_ne_nil first later)]
      apply Or.inr
      have begins : radix.1.Begins first := by
        have head : (takeRadix sign.2).2.head? = some first → (takeRadix sign.2).1.Begins first :=
          fun same => takeRadix_begins sign.2 same
        rw [number] at head
        apply head
        rw [← digits, shape]
        rfl
      have inBase : ∀ digit ∈ first :: later, isDigitIn radix.1.base digit := by
        intro digit member
        rw [← shape] at member
        exact List.mem_takeWhile_imp member
      refine ⟨⟨text.takeWhile isSpace, sign.1, radix.1, first, later, fun char member => List.mem_takeWhile_imp member,
        inBase, begins⟩, ?_, rfl⟩
      have marked := takeRadix_append sign.2
      rw [number] at marked
      have together := takeSign_append (text.dropWhile isSpace)
      rw [signed] at together
      rw [Numeral.text, List.append_assoc, List.append_assoc, List.append_assoc]
      rw [← shape, digits, marked, together, spaces]

/-- A unit after the number multiplies it, and the rest begins after the unit. -/
theorem strtoullWithPrefix_cases (text : List Char) :
    ∃ suffix : Suffix, (strtoull text).2 = suffix.text ++ (strtoullWithPrefix text).2 ∧
      (strtoullWithPrefix text).1 = (strtoull text).1 * suffix.factor := by
  unfold strtoullWithPrefix
  split
  · next number => exact ⟨.kilo, by rw [number]; rfl, by rw [number]; rfl⟩
  · next number => exact ⟨.mega, by rw [number]; rfl, by rw [number]; rfl⟩
  · next number => exact ⟨.giga, by rw [number]; rfl, by rw [number]; rfl⟩
  · next number => exact ⟨.absent, by rw [number]; rfl, by rw [number]; exact (UInt64.mul_one _).symm⟩

theorem strtoullWithPrefix_suffix {text : List Char} {value : UInt64} {suffix : Suffix}
    (number : strtoull text = (value, suffix.text)) : strtoullWithPrefix text = (value * suffix.factor, []) := by
  unfold strtoullWithPrefix
  rw [number]
  cases suffix with
  | absent => exact congrArg (fun size : UInt64 => (size, ([] : List Char))) (UInt64.mul_one value).symm
  | kilo => rfl
  | mega => rfl
  | giga => rfl

/-- A unit alone is no number. -/
theorem strtoull_suffix (suffix : Suffix) : strtoull suffix.text = (0, suffix.text) := by
  cases suffix <;> rfl

/-- The program reads exactly the sizes up to the end of the text. -/
theorem strtoullWithPrefix_eq_iff {text : List Char} {size : UInt64} :
    strtoullWithPrefix text = (size, []) ↔ IsSize text size := by
  constructor
  · intro read
    obtain ⟨suffix, rest, product⟩ := strtoullWithPrefix_cases text
    rw [read, List.append_nil] at rest
    rw [read] at product
    rcases strtoull_cases text with none | ⟨numeral, shape, value⟩
    · rw [none] at rest product
      exact .inr ⟨suffix, rest, product.trans UInt64.zero_mul⟩
    · rw [rest] at shape
      rw [value] at product
      exact .inl ⟨numeral, suffix, shape, product⟩
  · rintro (⟨numeral, suffix, rfl, rfl⟩ | ⟨suffix, rfl, rfl⟩)
    · exact strtoullWithPrefix_suffix (strtoull_numeral numeral suffix)
    · have read := strtoullWithPrefix_suffix (strtoull_suffix suffix)
      rw [UInt64.zero_mul] at read
      exact read

/-- The words that are no options are the arguments. -/
def argumentsOf (words : List CommandWord) : List (List Char) :=
  words.filterMap fun word =>
    match word with
    | .verbose => none
    | .argument text => some text

@[simp] theorem argumentsOf_verbose (words : List CommandWord) :
    argumentsOf (.verbose :: words) = argumentsOf words := rfl

@[simp] theorem argumentsOf_argument (text : List Char) (words : List CommandWord) :
    argumentsOf (.argument text :: words) = text :: argumentsOf words := rfl

/-- An option anywhere among the words makes the program verbose. -/
def Arguments.verboseBy (arguments : Arguments) (words : List CommandWord) : Arguments :=
  { arguments with verbose := arguments.verbose || decide (.verbose ∈ words) }

@[simp] theorem Arguments.verboseBy_nil (arguments : Arguments) : arguments.verboseBy [] = arguments := by
  simp [Arguments.verboseBy]

theorem Arguments.verboseBy_verbose (arguments : Arguments) (words : List CommandWord) :
    ({ arguments with verbose := true } : Arguments).verboseBy words = arguments.verboseBy (.verbose :: words) := by
  simp [Arguments.verboseBy]

theorem Arguments.verboseBy_argument (arguments : Arguments) (text : List Char) (words : List CommandWord) :
    arguments.verboseBy (.argument text :: words) = arguments.verboseBy words := by
  simp [Arguments.verboseBy]

/-- An option leaves the number of the next argument. -/
theorem argpParse_verbose (words : List CommandWord) (argNum : Nat) (arguments : Arguments) :
    argpParse (.verbose :: words) argNum arguments = argpParse words argNum { arguments with verbose := true } := rfl

/-- After two arguments the program accepts only options. -/
theorem argpParse_after_two {words : List CommandWord} {argNum : Nat} {arguments final : Arguments} :
    argpParse words (argNum + 2) arguments = .ok final ↔
      argumentsOf words = [] ∧ arguments.verboseBy words = final := by
  induction words generalizing arguments with
  | nil => simp [argpParse, parseOpt, argumentsOf]
  | cons word rest ih =>
      cases word with
      | verbose => rw [argpParse_verbose, ih, Arguments.verboseBy_verbose, argumentsOf_verbose]
      | argument text =>
          constructor
          · intro parsed
            cases parsed
          · rintro ⟨none, -⟩
            cases none

/-- The second argument is the device. -/
theorem argpParse_after_one {words : List CommandWord} {arguments final : Arguments} :
    argpParse words 1 arguments = .ok final ↔ ∃ device, argumentsOf words = [device] ∧
      ({ arguments with device := some device } : Arguments).verboseBy words = final := by
  induction words generalizing arguments with
  | nil => simp [argpParse, parseOpt, argumentsOf]
  | cons word rest ih =>
      cases word with
      | verbose => simp only [argpParse_verbose, ih, argumentsOf_verbose, ← Arguments.verboseBy_verbose]
      | argument text =>
          have next : argpParse (.argument text :: rest) 1 arguments =
              argpParse rest (0 + 2) { arguments with device := some text } := rfl
          rw [next, argpParse_after_two]
          simp only [argumentsOf_argument, Arguments.verboseBy_argument, List.cons.injEq]
          constructor
          · rintro ⟨none, same⟩
            exact ⟨text, ⟨rfl, none⟩, same⟩
          · rintro ⟨device, ⟨rfl, none⟩, same⟩
            exact ⟨none, same⟩

/-- A text that is no size ends the program. -/
theorem parseOpt_size_iff {text : List Char} {arguments after : Arguments} :
    parseOpt (.keyArg text) 0 arguments = .ok after ↔
      ∃ size, IsSize text size ∧ { arguments with size := size } = after := by
  simp only [parseOpt, ← strtoullWithPrefix_eq_iff]
  split
  · next size read =>
      constructor
      · intro parsed
        exact ⟨size, read, Except.ok.inj parsed⟩
      · rintro ⟨other, again, rfl⟩
        rw [read] at again
        rw [(Prod.mk.inj again).1]
  · next other =>
      constructor
      · intro parsed
        cases parsed
      · rintro ⟨size, read, -⟩
        exact absurd read (other size)

/-- The first argument is the size. -/
theorem argpParse_from_start {words : List CommandWord} {arguments final : Arguments} :
    argpParse words 0 arguments = .ok final ↔ ∃ text size device, argumentsOf words = [text, device] ∧
      IsSize text size ∧
      ({ arguments with size := size, device := some device } : Arguments).verboseBy words = final := by
  induction words generalizing arguments with
  | nil => simp [argpParse, parseOpt, argumentsOf]
  | cons word rest ih =>
      cases word with
      | verbose => simp only [argpParse_verbose, ih, argumentsOf_verbose, ← Arguments.verboseBy_verbose]
      | argument text =>
          simp only [argumentsOf_argument, Arguments.verboseBy_argument, List.cons.injEq]
          constructor
          · intro parsed
            obtain ⟨after, first, later⟩ : ∃ after, parseOpt (.keyArg text) 0 arguments = .ok after ∧
                argpParse rest 1 after = .ok final := by
              rw [argpParse] at parsed
              cases read : parseOpt (.keyArg text) 0 arguments with
              | error rejection =>
                  rw [read] at parsed
                  cases parsed
              | ok after =>
                  rw [read] at parsed
                  exact ⟨after, rfl, parsed⟩
            obtain ⟨size, accepted, rfl⟩ := parseOpt_size_iff.mp first
            obtain ⟨device, single, same⟩ := argpParse_after_one.mp later
            exact ⟨text, size, device, ⟨rfl, single⟩, accepted, same⟩
          · rintro ⟨first, size, device, ⟨rfl, single⟩, accepted, same⟩
            rw [argpParse, parseOpt_size_iff.mpr ⟨size, accepted, rfl⟩]
            exact argpParse_after_one.mpr ⟨device, single, same⟩

/-- The program starts exactly with a size and a device, with the option at any place and any number of times. -/
theorem mainArguments_ok_iff {words : List CommandWord} {arguments : Arguments} :
    mainArguments words = .ok arguments ↔ ∃ text device, argumentsOf words = [text, device] ∧
      IsSize text arguments.size ∧ arguments.device = some device ∧ arguments.verbose = decide (.verbose ∈ words) := by
  rw [mainArguments, argpParse_from_start]
  constructor
  · rintro ⟨text, size, device, two, accepted, rfl⟩
    exact ⟨text, device, two, accepted, rfl, Bool.false_or _⟩
  · rintro ⟨text, device, two, accepted, same, verbose⟩
    refine ⟨text, arguments.size, device, two, accepted, ?_⟩
    obtain ⟨size, path, option⟩ := arguments
    obtain rfl : path = some device := same
    obtain rfl : option = decide (CommandWord.verbose ∈ words) := verbose
    rw [Arguments.verboseBy, Bool.false_or]

/-- These words stand before the two dashes, or there are none. -/
def optionPart (line : List (List Char)) : List (List Char) := line.takeWhile fun word => word ≠ ['-', '-']

/-- The words before the two dashes that are no options and all words after them are arguments. -/
def positional (line : List (List Char)) : List (List Char) :=
  (optionPart line).filter (fun word => !isOption word) ++ (line.dropWhile fun word => word ≠ ['-', '-']).drop 1

theorem isOption_of_isVerbose {word : List Char} (verbose : isVerbose word) : isOption word := by
  unfold isVerbose at verbose
  split at verbose
  · rfl
  · next letters other =>
      cases letters with
      | nil => cases verbose
      | cons letter rest => rfl
  · cases verbose

/-- A line without other options has words, and they are its arguments and its options. -/
theorem commandWords_spec {line : List (List Char)} (plain : ∀ word ∈ optionPart line, isOption word → isVerbose word) :
    ∃ words, commandWords line = some words ∧ argumentsOf words = positional line ∧
      (.verbose ∈ words ↔ ∃ word ∈ optionPart line, isVerbose word) := by
  induction line with
  | nil => exact ⟨[], rfl, rfl, by simp [optionPart]⟩
  | cons word rest ih =>
      by_cases dashes : word = ['-', '-']
      · refine ⟨rest.map .argument, by rw [commandWords, if_pos dashes], ?_, ?_⟩
        · have all : argumentsOf (rest.map .argument) = rest := by
            rw [argumentsOf, List.filterMap_map]
            exact List.filterMap_some
          simp [all, positional, optionPart, dashes]
        · simp [optionPart, dashes]
      · have before : optionPart (word :: rest) = word :: optionPart rest :=
          List.takeWhile_cons_of_pos (decide_eq_true dashes)
        have after : ((word :: rest).dropWhile fun word => word ≠ ['-', '-']) =
            rest.dropWhile fun word => word ≠ ['-', '-'] := List.dropWhile_cons_of_pos (decide_eq_true dashes)
        rw [before] at plain ⊢
        obtain ⟨here, later⟩ := List.forall_mem_cons.mp plain
        obtain ⟨words, read, arguments, verbose⟩ := ih later
        rw [positional, before, after]
        by_cases option : isVerbose word
        · refine ⟨.verbose :: words, by rw [commandWords, if_neg dashes, if_pos option, read]; rfl, ?_, ?_⟩
          · rw [argumentsOf_verbose, arguments, List.filter_cons_of_neg (by simp [isOption_of_isVerbose option])]
            rfl
          · simp [option]
        · have argument : ¬ isOption word := fun dashed => option (here dashed)
          refine ⟨.argument word :: words,
            by rw [commandWords, if_neg dashes, if_neg option, if_neg argument, read]; rfl, ?_, ?_⟩
          · rw [argumentsOf_argument, arguments, List.filter_cons_of_pos (by simp [argument])]
            rfl
          · simp [option, verbose]

/-- Without other options the program starts exactly with a size and a device, and the option may stand anywhere. -/
theorem commandLine_ok_iff {line : List (List Char)}
    (plain : ∀ word ∈ optionPart line, isOption word → isVerbose word) {arguments : Arguments} :
    (commandWords line).map mainArguments = some (.ok arguments) ↔ ∃ text device, positional line = [text, device] ∧
      IsSize text arguments.size ∧ arguments.device = some device ∧
      arguments.verbose = decide (∃ word ∈ optionPart line, isVerbose word) := by
  obtain ⟨words, read, same, verbose⟩ := commandWords_spec plain
  rw [read, Option.map_some, Option.some.injEq, mainArguments_ok_iff, same]
  simp only [verbose]

/-- The option stands between the arguments, and two dashes let the device start with one. -/
theorem commandLine_ok_dashes :
    (commandWords [['4', 'K'], ['-', '-', 'v', 'e', 'r', 'b'], ['-', '-'], ['-', 'n']]).map mainArguments =
      some (.ok ⟨4096, some ['-', 'n'], true⟩) := by
  refine (commandLine_ok_iff (by decide)).mpr ⟨['4', 'K'], ['-', 'n'], by decide, ?_, rfl, by decide⟩
  exact strtoullWithPrefix_eq_iff.mp rfl

/-- A decimal text is a numeral of its number. -/
theorem exists_decimal_numeral (number : Nat) :
    ∃ numeral : Numeral, numeral.text = decimal number ∧ numeral.value = converted .absent number := by
  have digits : ∀ digit ∈ decimal number, isDigitIn 10 digit := fun digit member => isDigitIn_of_mem_decimal member
  have value := valueOf_decimal number
  by_cases zero : number = 0
  · have blank : ∀ char ∈ ([] : List Char), isSpace char := by
      intro char member
      cases member
    refine ⟨⟨[], .absent, .octal, '0', [], blank, ?_, rfl⟩, ?_, ?_⟩
    · intro digit member
      rw [List.mem_singleton.mp member]
      decide
    · rw [zero]
      rfl
    · rw [zero]
      rfl
  · cases shape : decimal number with
    | nil => exact absurd shape (decimal_ne_nil number)
    | cons first later =>
        have begins : Radix.decimal.Begins first := by
          intro same
          apply head_decimal zero
          rw [shape, same]
          rfl
        rw [shape] at digits value
        refine ⟨⟨[], .absent, .decimal, first, later, ?_, digits, begins⟩, rfl, ?_⟩
        · intro char member
          cases member
        · exact congrArg (converted .absent) value

theorem converted_absent_toNat (number : Nat) :
    (converted .absent number).toNat = min number (UInt64.size - 1) := by
  unfold converted
  split
  · next large => rw [UInt64.toNat_ofNat_of_lt' (by decide), Nat.min_eq_right (by omega)]
  · next small =>
      have bound : number < UInt64.size := Nat.lt_of_not_le small
      rw [if_neg (by decide), UInt64.toNat_ofNat_of_lt' bound, Nat.min_eq_left (by omega)]

theorem Suffix.factor_pos (suffix : Suffix) : 0 < suffix.factor.toNat := by
  cases suffix <;> decide

/-- A decimal size with a unit is always accepted, and it is the meant size exactly if the meant size fits. -/
theorem mainArguments_decimal (number : Nat) (suffix : Suffix) (device : List Char) :
    ∃ arguments, mainArguments [.argument (decimal number ++ suffix.text), .argument device] = .ok arguments ∧
      arguments.size.toNat = min number (UInt64.size - 1) * suffix.factor.toNat % UInt64.size ∧
      (arguments.size.toNat = number * suffix.factor.toNat ↔ number * suffix.factor.toNat < UInt64.size) := by
  obtain ⟨numeral, text, value⟩ := exists_decimal_numeral number
  have accepted : IsSize (decimal number ++ suffix.text) (converted .absent number * suffix.factor) := by
    rw [← text, ← value]
    exact .inl ⟨numeral, suffix, rfl, rfl⟩
  have size : (converted .absent number * suffix.factor).toNat =
      min number (UInt64.size - 1) * suffix.factor.toNat % UInt64.size := by
    rw [UInt64.toNat_mul, converted_absent_toNat]
  refine ⟨⟨converted .absent number * suffix.factor, some device, false⟩, ?_, size, ?_⟩
  · exact mainArguments_ok_iff.mpr ⟨_, device, rfl, accepted, rfl, rfl⟩
  · constructor
    · intro meant
      rw [← meant]
      exact UInt64.toNat_lt_size _
    · intro fits
      have small : number < UInt64.size := (Nat.le_mul_of_pos_right number suffix.factor_pos).trans_lt fits
      rw [size, Nat.min_eq_left (by omega), Nat.mod_eq_of_lt fits]

end DistributedNas.Buse
