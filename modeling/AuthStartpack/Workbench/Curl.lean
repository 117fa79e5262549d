import AuthStartpack.Encoding.ShellWords

/-!
Owns the command that the workbench shows for a request, and that a shell reads
from it just the arguments it was made of. A request carries the JSON text of its
body, and its headers in the order in which their object lists them.
-/

namespace AuthStartpack.Workbench

open Shell

inductive HttpMethod
  | get
  | post
  | put
  | patch
  | delete
deriving DecidableEq, Repr

def HttpMethod.text : HttpMethod → String
  | .get => "GET"
  | .post => "POST"
  | .put => "PUT"
  | .patch => "PATCH"
  | .delete => "DELETE"

structure ApiRequestInput where
  apiBase : String
  method : HttpMethod
  path : String
  body : Option String := none
  headers : List (String × String) := []
deriving DecidableEq, Repr

/-- An apostrophe ends the quotes, stands in double quotes, and begins them again. -/
def escapedApostrophe : List Char :=
  [apostrophe, quotationMark, apostrophe, quotationMark, apostrophe]

def shellEscape (value : String) : String :=
  String.ofList (value.toList.flatMap fun character =>
    if character = apostrophe then escapedApostrophe else [character])

/-- The escaped text in single quotes. -/
def quote (value : String) : String :=
  String.singleton apostrophe ++ shellEscape value ++ String.singleton apostrophe

/-- The end of a line that goes on in the next one. -/
def continuation : String := String.ofList [' ', backslash, lineFeed, ' ', ' ']

def createCurl (input : ApiRequestInput) : String :=
  let url := input.apiBase ++ input.path
  let headerArguments := String.intercalate continuation
    (input.headers.map fun (name, value) => "-H " ++ quote (name ++ ": " ++ value))
  let bodyArgument :=
    match input.body with
    | none => ""
    | some body => continuation ++ "--data " ++ quote body
  "curl -i -X " ++ input.method.text ++ " " ++ quote url ++
    (if headerArguments = "" then "" else continuation ++ headerArguments) ++ bodyArgument

/-- The arguments that the command is to show. -/
def arguments (input : ApiRequestInput) : List String :=
  ["curl", "-i", "-X", input.method.text, input.apiBase ++ input.path] ++
    input.headers.flatMap (fun (name, value) => ["-H", name ++ ": " ++ value]) ++
    input.body.toList.flatMap fun body => ["--data", body]

/-! ### Parts of a command -/

section Parts

variable {words : List String} {begun : List Char}

/-- Inside of the quotes the escaped text is read as the text. -/
theorem run_shellEscape (text : List Char) :
    Scanner.run ⟨.single, words, some begun⟩ (text.flatMap fun character =>
        if character = apostrophe then escapedApostrophe else [character]) =
      some ⟨.single, words, some (begun ++ text)⟩ := by
  induction text generalizing begun with
  | nil => simp [Scanner.run]
  | cons character rest inductionHypothesis =>
      have first : Scanner.run ⟨.single, words, some begun⟩
          (if character = apostrophe then escapedApostrophe else [character]) =
            some ⟨.single, words, some (begun ++ [character])⟩ := by
        by_cases isApostrophe : character = apostrophe
        · rw [if_pos isApostrophe, isApostrophe]
          rfl
        · rw [if_neg isApostrophe]
          show (Scanner.step _ character).bind some = _
          rw [Scanner.step_single isApostrophe]
          rfl
      rw [List.flatMap_cons, Scanner.run_append, first, Option.bind_some, inductionHypothesis]
      simp

/-- A quoted text is one word, whatever it consists of. -/
theorem run_quote (value : String) :
    Scanner.run ⟨.unquoted, words, none⟩ (quote value).toList =
      some ⟨.unquoted, words, some value.toList⟩ := by
  have text : (quote value).toList = [apostrophe] ++ (value.toList.flatMap fun character =>
      if character = apostrophe then escapedApostrophe else [character]) ++ [apostrophe] := by
    simp [quote, shellEscape]
  have open_ : Scanner.run ⟨.unquoted, words, none⟩
    [apostrophe] = some ⟨.single, words, some []⟩ := rfl
  have close : ∀ letters, Scanner.run ⟨.single, words, some letters⟩ [apostrophe] =
      some ⟨.unquoted, words, some letters⟩ := fun _ => rfl
  rw [text, Scanner.run_append, Scanner.run_append, open_, Option.bind_some, run_shellEscape,
    Option.bind_some, close, List.nil_append]

/-- A continuation ends a word as a blank does. -/
theorem run_continuation :
    Scanner.run ⟨.unquoted, words, some begun⟩ continuation.toList =
      some ⟨.unquoted, words ++ [String.ofList begun], none⟩ := by
  have blank : ∀ words word, Scanner.run ⟨.unquoted, words, word⟩ [' '] =
      some ⟨.unquoted, words ++ (word.map String.ofList).toList, none⟩ :=
    fun _ _ => Scanner.run_blank rfl (by decide)
  have joined : ∀ words, Scanner.run ⟨.unquoted, words, none⟩ [backslash, lineFeed] =
      some ⟨.unquoted, words, none⟩ := fun _ => rfl
  have text : continuation.toList = [' '] ++ ([backslash, lineFeed] ++ ([' '] ++ [' '])) :=
    String.toList_ofList
  rw [text, Scanner.run_append, blank, Option.bind_some, Scanner.run_append, joined,
    Option.bind_some,
    Scanner.run_append, blank, Option.bind_some, blank]
  simp

/-- After a word that is not empty yet, the text adds these words, the last one without an end. -/
def Adds (text : String) (added : List String) : Prop :=
  ∀ before last, ∃ earlier final,
    Scanner.run ⟨.unquoted, before, some last⟩ text.toList = some ⟨.unquoted, earlier, some final⟩ ∧
      earlier ++ [String.ofList final] = before ++ [String.ofList last] ++ added

theorem Adds.nothing : Adds "" [] := by
  intro before last
  exact ⟨before, last, rfl, by simp⟩

theorem Adds.append {first second : String} {added more : List String} (adds : Adds first added)
    (addsMore : Adds second more) : Adds (first ++ second) (added ++ more) := by
  intro before last
  obtain ⟨earlier, middle, run, words⟩ := adds before last
  obtain ⟨others, final, runMore, moreWords⟩ := addsMore earlier middle
  refine ⟨others, final, ?_, ?_⟩
  · rw [String.toList_append, Scanner.run_append, run, Option.bind_some, runMore]
  · rw [moreWords, words]
    simp

/-- What ends a word. -/
def Ends (separator : String) : Prop :=
  ∀ before last, Scanner.run ⟨.unquoted, before, some last⟩ separator.toList =
    some ⟨.unquoted, before ++ [String.ofList last], none⟩

theorem ends_blank : Ends " " := fun _ _ => Scanner.run_blank rfl (by decide)

theorem ends_continuation : Ends continuation := fun _ _ => run_continuation

theorem Adds.quoted {separator : String} (ends : Ends separator) (value : String) :
    Adds (separator ++ quote value) [value] := by
  intro before last
  refine ⟨before ++ [String.ofList last], value.toList, ?_, by simp⟩
  rw [String.toList_append, Scanner.run_append, ends before last, Option.bind_some, run_quote]

theorem Adds.plain {separator word : String} (ends : Ends separator)
    (isPlain : word.toList.all (Scanner.IsPlain ·) = true) (shown : word.toList ≠ []) :
    Adds (separator ++ word) [word] := by
  intro before last
  refine ⟨before ++ [String.ofList last], word.toList, ?_, by simp⟩
  rw [String.toList_append, Scanner.run_append, ends before last, Option.bind_some,
    Scanner.run_plain_word (List.all_iff_forall_prop.mp isPlain) shown]

end Parts

/-! ### The whole command -/

theorem tokenize_append {word text : String} {added : List String}
    (isPlain : word.toList.all (Scanner.IsPlain ·) = true) (shown : word.toList ≠ [])
    (adds : Adds text added) : tokenize (word ++ text) = some (word :: added) := by
  obtain ⟨earlier, final, run, words⟩ := adds [] word.toList
  have first : Scanner.run {} word.toList = some ⟨.unquoted, [], some word.toList⟩ :=
    Scanner.run_plain_word (List.all_iff_forall_prop.mp isPlain) shown
  rw [tokenize, String.toList_append, Scanner.run_append, first, Option.bind_some, run,
    Option.bind_some]
  show some (earlier ++ [String.ofList final]) = _
  rw [words]
  simp

/-- The arguments of the headers, each header on a line of its own. -/
def headerLines (headers : List (String × String)) : List String :=
  headers.map fun (name, value) => "-H " ++ quote (name ++ ": " ++ value)

theorem adds_header (header : String) : Adds (continuation ++ ("-H " ++ quote header))
    ["-H", header] := by
  have text : continuation ++ ("-H " ++ quote header) = (continuation ++ "-H") ++
      (" " ++ quote header) := by
    apply String.toList_injective
    simp
  rw [text]
  exact (Adds.plain ends_continuation (by decide) (by decide)).append (.quoted ends_blank header)

theorem adds_headerLines (headers : List (String × String)) (listed : headers ≠ []) :
    Adds (continuation ++ String.intercalate continuation (headerLines headers))
      (headers.flatMap fun (name, value) => ["-H", name ++ ": " ++ value]) := by
  induction headers with
  | nil => exact absurd rfl listed
  | cons header rest inductionHypothesis =>
      have first := adds_header (header.1 ++ ": " ++ header.2)
      cases rest with
      | nil =>
          rw [headerLines, List.map_singleton, String.intercalate_singleton]
          exact first
      | cons other others =>
          have later := inductionHypothesis (List.cons_ne_nil other others)
          have lines : continuation ++ String.intercalate continuation
              (headerLines (header :: other :: others)) =
              (continuation ++ ("-H " ++ quote (header.1 ++ ": " ++ header.2))) ++
                (continuation ++ String.intercalate continuation
                  (headerLines (other :: others))) := by
            rw [headerLines, List.map_cons, List.map_cons, String.intercalate_cons_cons]
            simp only [headerLines, List.map_cons, String.append_assoc]
          rw [lines]
          exact first.append later

/-- A header is never nothing. -/
theorem headerLines_eq_empty {headers : List (String × String)} :
    String.intercalate continuation (headerLines headers) = "" ↔ headers = [] := by
  cases headers with
  | nil => simp [headerLines]
  | cons header rest =>
      refine ⟨fun empty => ?_, fun impossible => nomatch impossible⟩
      obtain ⟨more, line⟩ : ∃ more, String.intercalate continuation (headerLines (header :: rest)) =
          "-H " ++ more := by
        cases rest with
        | nil => exact ⟨_, String.intercalate_singleton⟩
        | cons other others =>
            rw [headerLines, List.map_cons, List.map_cons, String.intercalate_cons_cons]
            simp only [String.append_assoc]
            exact ⟨_, rfl⟩
      have letters := congrArg String.toList (line.symm.trans empty)
      simp at letters

/-- A shell reads the command as the arguments that it shows, and nothing else. -/
theorem tokenize_createCurl (input : ApiRequestInput) :
    tokenize (createCurl input) = some (arguments input) := by
  have method : Adds (" " ++ input.method.text) [input.method.text] := by
    apply Adds.plain ends_blank
    · cases input.method <;> decide
    · cases input.method <;> decide
  have flags : Adds ((" " ++ "-i") ++ (" " ++ "-X")) ["-i", "-X"] :=
    (Adds.plain ends_blank (by decide) (by decide)).append
      (.plain ends_blank (by decide) (by decide))
  have url : Adds (" " ++ quote (input.apiBase ++ input.path)) [input.apiBase ++ input.path] :=
    .quoted ends_blank _
  have headers : Adds
      (if String.intercalate continuation (headerLines input.headers) = "" then ""
        else continuation ++ String.intercalate continuation (headerLines input.headers))
      (input.headers.flatMap fun (name, value) => ["-H", name ++ ": " ++ value]) := by
    by_cases listed : input.headers = []
    · rw [if_pos (headerLines_eq_empty.mpr listed), listed]
      exact .nothing
    · rw [if_neg (mt headerLines_eq_empty.mp listed)]
      exact adds_headerLines input.headers listed
  have body : Adds (match input.body with
        | none => ""
        | some body => continuation ++ "--data " ++ quote body)
      (input.body.toList.flatMap fun body => ["--data", body]) := by
    cases input.body with
    | none => exact .nothing
    | some json =>
        have text : continuation ++ "--data " ++ quote json =
            (continuation ++ "--data") ++ (" " ++ quote json) := by
          apply String.toList_injective
          simp
        show Adds (continuation ++ "--data " ++ quote json) ["--data", json]
        rw [text]
        exact (Adds.plain ends_continuation (by decide) (by decide)).append
          (.quoted ends_blank json)
  have curl : "curl".toList.all (Scanner.IsPlain ·) = true := by decide
  have all := tokenize_append curl (by decide) (flags.append (method.append (url.append
    (headers.append body))))
  have text : createCurl input = "curl" ++
      (" " ++ "-i" ++ (" " ++ "-X") ++ (" " ++ input.method.text ++
      (" " ++ quote (input.apiBase ++ input.path) ++
        ((if String.intercalate continuation (headerLines input.headers) = "" then ""
          else continuation ++ String.intercalate continuation (headerLines input.headers)) ++
          match input.body with
          | none => ""
          | some body => continuation ++ "--data " ++ quote body)))) := by
    have start : "curl -i -X " = "curl" ++ (" " ++ "-i" ++ (" " ++ "-X") ++ " ") := by
      decide +kernel
    unfold createCurl
    dsimp only
    rw [start]
    simp only [headerLines, String.append_assoc]
  rw [text, all, arguments]
  simp

end AuthStartpack.Workbench
