/-!
# Options and arguments

The words after a command are options and arguments. An option has a long name after two dashes
and may have a short one, a single character after one dash. The value of an option follows its
short name directly, or its long name after an equals sign, or is the next word, whatever that
looks like. Short options without values can share a dash. After two dashes alone there are no
more options.
-/

namespace MethodSig.CommandLine

/-- An option. -/
structure OptionSpec where
  long : String
  short : Option Char
  hasValue : Bool
deriving DecidableEq, Repr

/-- The options and the arguments among some words. -/
structure Words where
  /-- The options that are given, with their values, in order. The value of an option without one
  is empty. -/
  options : List (OptionSpec × String)
  arguments : List String
deriving DecidableEq, Repr

namespace Words

/-- The value of an option. Of several, the last counts. -/
def value? (words : Words) (spec : OptionSpec) : Option String :=
  words.options.reverse.lookup spec

def has (words : Words) (spec : OptionSpec) : Bool :=
  (words.value? spec).isSome

def withOptions (options : List (OptionSpec × String)) (words : Words) : Words :=
  { words with options := options ++ words.options }

def withArgument (argument : String) (words : Words) : Words :=
  { words with arguments := argument :: words.arguments }

end Words

/-- What one word says about options. -/
structure OptionWord where
  /-- The options that are complete, with their values. -/
  complete : List (OptionSpec × String)
  /-- The option whose value is the next word. -/
  awaiting : Option OptionSpec
deriving DecidableEq, Repr

def readShort (specs : List OptionSpec) : List Char → Option OptionWord
  | [] => some ⟨[], none⟩
  | c :: rest => do
    let spec ← specs.find? (·.short = some c)
    if spec.hasValue then
      return if rest.isEmpty then ⟨[], some spec⟩ else ⟨[(spec, String.ofList rest)], none⟩
    else
      let others ← readShort specs rest
      return { others with complete := (spec, "") :: others.complete }

/-- Reads what stands after the two dashes of a long option. -/
def readLong (specs : List OptionSpec) (text : List Char) : Option OptionWord := do
  let spec ← specs.find? (·.long.toList = text.takeWhile (· != '='))
  match text.dropWhile (· != '='), spec.hasValue with
  | [], true => return ⟨[], some spec⟩
  | [], false => return ⟨[(spec, "")], none⟩
  | _ :: value, true => return ⟨[(spec, String.ofList value)], none⟩
  | _ :: _, false => none

def readOption (specs : List OptionSpec) : List Char → Option OptionWord
  | '-' :: '-' :: text => readLong specs text
  | _ :: text => readShort specs text
  | [] => none

def isOption (word : String) : Bool :=
  word.startsWith "-" && 1 < word.length

/-- Reads the words after a command. If options may follow arguments, an argument need not be the
end of the options. -/
def readWords (specs : List OptionSpec) (mayFollow : Bool) : List String → Option Words
  | [] => some ⟨[], []⟩
  | word :: rest =>
    if word = "--" then some ⟨[], rest⟩
    else if isOption word then
      match readOption specs word.toList, rest with
      | none, _ => none
      | some ⟨options, none⟩, rest => (readWords specs mayFollow rest).map (·.withOptions options)
      | some ⟨_, some _⟩, [] => none
      | some ⟨options, some spec⟩, value :: rest =>
        (readWords specs mayFollow rest).map (·.withOptions (options ++ [(spec, value)]))
    else if mayFollow then (readWords specs mayFollow rest).map (·.withArgument word)
    else some ⟨[], word :: rest⟩

end MethodSig.CommandLine
