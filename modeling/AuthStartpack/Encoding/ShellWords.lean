import Mathlib.Data.Bool.AllAny
import Mathlib.Data.List.TakeWhile

/-!
Owns the words of a simple command by the quoting rules of the POSIX shell. The
scanner refuses every text that means more than words: operators, expansions,
patterns, comments, assignments, a second command, and open quotes.

The module names nothing of the modelled repository.
-/

namespace AuthStartpack.Shell

def lineFeed : Char := Char.ofNat 10

def quotationMark : Char := Char.ofNat 34

def apostrophe : Char := Char.ofNat 39

def backslash : Char := Char.ofNat 92

def backquote : Char := Char.ofNat 96

/-- What separates words. -/
def isBlank (character : Char) : Bool := character = ' ' || character.toNat = 9

/-- What has a meaning of its own outside of quotes, in some place at least. -/
def isSpecial (character : Char) : Bool :=
  character = lineFeed || character = backquote || "|&;<>()$*?[]#~=%!{}^".toList.contains character

inductive Quoting
  | unquoted
  | escaped
  | single
  | double
  | doubleEscaped
deriving DecidableEq, Repr

/-- The words that are complete, and the one that has begun. -/
structure Scanner where
  quoting : Quoting := .unquoted
  words : List String := []
  word : Option (List Char) := none
deriving DecidableEq, Repr

namespace Scanner

/-- Quotes begin a word, even an empty one. -/
def begin (scanner : Scanner) (quoting : Quoting) : Scanner :=
  { scanner with quoting, word := some (scanner.word.getD []) }

def push (scanner : Scanner) (character : Char) : Scanner :=
  { scanner with word := some (scanner.word.getD [] ++ [character]) }

def delimit (scanner : Scanner) : Scanner :=
  { scanner with words := scanner.words ++ (scanner.word.map String.ofList).toList, word := none }

/-- One character of the text. -/
def step (scanner : Scanner) (character : Char) : Option Scanner :=
  match scanner.quoting with
  | .unquoted =>
      if character = backslash then some { scanner with quoting := .escaped }
      else if character = apostrophe then some (scanner.begin .single)
      else if character = quotationMark then some (scanner.begin .double)
      else if isBlank character then some scanner.delimit
      else if isSpecial character then none
      else some (scanner.push character)
  | .escaped =>
      -- A line that ends in a backslash goes on in the next one.
      if character = lineFeed then some { scanner with quoting := .unquoted }
      else some { scanner.push character with quoting := .unquoted }
  | .single =>
      if character = apostrophe then some { scanner with quoting := .unquoted }
      else some (scanner.push character)
  | .double =>
      if character = quotationMark then some { scanner with quoting := .unquoted }
      else if character = backslash then some { scanner with quoting := .doubleEscaped }
      else if character = '$' || character = backquote then none
      else some (scanner.push character)
  | .doubleEscaped =>
      if character = lineFeed then some { scanner with quoting := .double }
      else if ['$', backquote, quotationMark, backslash].contains character then
        some { scanner.push character with quoting := .double }
      else some { (scanner.push backslash).push character with quoting := .double }

def run (scanner : Scanner) (text : List Char) : Option Scanner := text.foldlM step scanner

end Scanner

/-- The words of a text that is one command made of words. -/
def tokenize (text : String) : Option (List String) :=
  (Scanner.run {} text.toList).bind fun scanner =>
    if scanner.quoting = .unquoted then some scanner.delimit.words else none

/-! ### Runs -/

namespace Scanner

variable {words : List String} {word : Option (List Char)} {begun letters : List Char}

theorem run_append (scanner : Scanner) (first second : List Char) :
    scanner.run (first ++ second) = (scanner.run first).bind (·.run second) :=
  List.foldlM_append

/-- A character that means itself outside of quotes. -/
def IsPlain (character : Char) : Prop :=
  character ≠ backslash ∧ character ≠ apostrophe ∧ character ≠ quotationMark ∧
    isBlank character = false ∧ isSpecial character = false

instance (character : Char) : Decidable (IsPlain character) := inferInstanceAs (Decidable (_ ∧ _))

theorem run_plain (plain : ∀ character ∈ letters, IsPlain character) :
    run ⟨.unquoted, words, some begun⟩ letters =
      some ⟨.unquoted, words, some (begun ++ letters)⟩ := by
  induction letters generalizing begun with
  | nil => simp [run]
  | cons character rest inductionHypothesis =>
      obtain ⟨slash, single, double, blank, special⟩ := plain character List.mem_cons_self
      have first : step ⟨.unquoted, words, some begun⟩ character =
          some ⟨.unquoted, words, some (begun ++ [character])⟩ := by
        simp only [step, if_neg slash, if_neg single, if_neg double, blank, special,
          Bool.false_eq_true, if_false]
        rfl
      rw [run, List.foldlM_cons, first]
      show run ⟨.unquoted, words, some (begun ++ [character])⟩ rest = _
      rw [inductionHypothesis fun other member => plain other (List.mem_cons_of_mem _ member)]
      simp

/-- A word without quotes, after a separator. -/
theorem run_plain_word (plain : ∀ character ∈ letters, IsPlain character) (shown : letters ≠ []) :
    run ⟨.unquoted, words, none⟩ letters = some ⟨.unquoted, words, some letters⟩ := by
  cases letters with
  | nil => exact absurd rfl shown
  | cons character rest =>
      obtain ⟨slash, single, double, blank, special⟩ := plain character List.mem_cons_self
      have first : step ⟨.unquoted, words, none⟩ character =
          some ⟨.unquoted, words, some [character]⟩ := by
        simp only [step, if_neg slash, if_neg single, if_neg double, blank, special,
          Bool.false_eq_true, if_false]
        rfl
      rw [run, List.foldlM_cons, first]
      exact run_plain fun other member => plain other (List.mem_cons_of_mem _ member)

/-- A blank ends the word that has begun. -/
theorem run_blank {character : Char} (blank : isBlank character = true)
    (plainOtherwise : character ≠ backslash ∧ character ≠ apostrophe ∧ character ≠ quotationMark) :
    run ⟨.unquoted, words, word⟩ [character] =
      some ⟨.unquoted, words ++ (word.map String.ofList).toList, none⟩ := by
  obtain ⟨slash, single, double⟩ := plainOtherwise
  show (step ⟨.unquoted, words, word⟩ character).bind some = _
  simp only [step, if_neg slash, if_neg single, if_neg double, blank, if_true]
  rfl

/-- In single quotes every other character means itself. -/
theorem step_single {character : Char} (other : character ≠ apostrophe) :
    step ⟨.single, words, some begun⟩ character =
      some ⟨.single, words, some (begun ++ [character])⟩ := by
  simp only [step, if_neg other]
  rfl

end Scanner

end AuthStartpack.Shell
