import MethodSig.Batch.Compiler
import MethodSig.Batch.Sources
import MethodSig.CommandLine.Command
import MethodSig.Console.Print
import MethodSig.Console.Table
import MethodSig.Method.Json
import MethodSig.Settings.Directory
import MethodSig.Signature.Listing
import MethodSig.Text.Lines

/-!
# Running a command

A command prints its result, or reports a diagnostic and ends with a failure. Log entries at or
above the level in force come first. A program that is not used as it should be does nothing, and
one whose surroundings are faulty stops without a report. How sources are parsed and batches are
turned into values is up to the caller.
-/

namespace MethodSig.CommandLine

/-- Why a command stopped without a report. -/
inductive Abort where
  | settings (fault : Settings.LoadFault)
  | listing (fault : Text.Utf8.Fault)
  | pattern (fault : PatternFault)
  | batch (fault : BatchFault)
  | markup (fault : Markup.UnopenedStyle)

/-- What is said about a command that stopped without a report. -/
def Abort.message : Abort → String
  | .settings (.unreadable error) =>
    s!"[Errno {error.code}] {error.text}: {Text.quoted Settings.fileName}"
  | .settings (.undecodable fault) => fault.message
  | .settings (.invalid faults) => "; ".intercalate (faults.map Validation.Fault.render)
  | .listing fault => fault.message
  | .pattern fault => fault.message
  | .batch fault => fault.message
  | .markup style => s!"No style to end: [/{String.ofList style.name}]"

/-- What a command leaves behind. -/
structure Report where
  succeeded : Bool
  output : List (List Char)
  errors : List (List Char)

/-- How a run of the program ends. -/
inductive Outcome where
  /-- The program was not used as it should be. -/
  | misused
  /-- The command stopped without a report. -/
  | aborted (reason : Abort)
  | finished (report : Report)

def Outcome.exitCode : Outcome → Nat
  | .misused => 2
  | .aborted _ => 1
  | .finished report => if report.succeeded then 0 else 1

variable (parse : Source.Parser) (adapter : BatchAdapter)

def diagnosticLines (columns : Nat) (diagnostic : Diagnostic) :
    Except Markup.UnopenedStyle (List (List Char)) := do
  let message ← Console.message columns s!"[red]Error:[/red] {diagnostic.message}"
  match diagnostic.details with
  | none => return message
  | some details => return message ++ (← Console.message columns s!"  {details}")

def methodsTable (target : Descriptor) (methods : List Method) : Table where
  title := some s!"API methods of {target.name}"
  header := ["Unique Name", "Method", "Result", "Arguments", "Member"]
  rows := methods.map fun m =>
    [m.uniqueName.getD "", m.name, m.resultType.name, m.renderArguments, m.member.render]

def descriptorTable (type : Descriptor) : Table where
  title := none
  header := ["Property", "Value"]
  rows := [["Name", type.name], ["Kind", type.kind.name]] ++
    match type.component with
    | none => []
    | some component =>
      [["Component", component.name], ["Dimensions", toString type.dimensions]]

def methodsLines (columns : Nat) (target : Descriptor) (methods : List Method) :
    Except Markup.UnopenedStyle (List (List Char)) := do
  let table ← (methodsTable target methods).render columns
  let summary ← Console.message columns s!"[green]✓[/green] {methods.length} methods compiled"
  return table ++ summary

/-- A finished batch as it is shown: as JSON or as a table. -/
def batchLines (columns : Nat) (asJson : Bool) (target : Descriptor) (methods : List Method) :
    Except Abort (List (List Char)) :=
  if asJson then do
    let text ← (serialize adapter methods).mapError .batch
    return Text.lines text.toList
  else (methodsLines columns target methods).mapError .markup

def compileListing (context : Context) (policy : DuplicatePolicy) (target : String)
    (signatures : List String) : Attempt (Descriptor × List Method) := do
  let target ← context.resolve target
  let methods ← Compiler.compile ⟨target, context, id, policy⟩ signatures
  return (target, methods)

/-- The report of an attempt, given how its result is shown and what was logged before it. -/
def report {α : Type} (columns : Nat) (level : Level) (before : List Event) (attempt : Attempt α)
    (present : α → Except Abort (List (List Char))) : Except Abort Report := do
  let finished := attempt.run
  let log := Console.log columns level (before ++ finished.log)
  match finished.value with
  | .ok result => return ⟨true, ← present result, log⟩
  | .error diagnostic =>
    return ⟨false, [], log ++ (← (diagnosticLines columns diagnostic).mapError .markup)⟩

/-- The context of a command that may be given a directory of sources. -/
def contextOf (settings : Settings) (sources : Option (Found Entry)) :
    Except Abort (Logged Context) :=
  (settings.context parse (sources.map fun found => ⟨found.path, found.content⟩)).mapError .pattern

/-- Runs a command. The settings are those of the directory that the program works in. -/
def Command.run (columns : Nat) (verbose : Bool) (settings : Except Abort Settings) :
    Command → Except Abort Report
  | .parse listing target sources asJson => do
    let signatures ← (Signature.readListing listing).mapError .listing
    let settings ← settings
    let context ← contextOf parse settings sources
    let level := if verbose then .debug else settings.logLevel
    report columns level context.log
      (compileListing context.value settings.duplicatePolicy target signatures)
      fun (target, methods) => batchLines adapter columns asJson target methods
  | .resolve typeName sources => do
    let settings ← settings
    let context ← contextOf parse settings sources
    let level := if verbose then .debug else settings.logLevel
    report columns level context.log (context.value.resolve typeName)
      fun type => ((descriptorTable type).render columns).mapError .markup

/-- Runs what the program is asked for. The level of the log is settled before the words of the
command are read: by the settings, unless all entries are shown. -/
def Invocation.run (columns : Nat) (environment : List (String × String)) (directory : Entry)
    (invocation : Invocation) : Outcome :=
  let settings := (Settings.ofDirectory environment directory).mapError Abort.settings
  match settings, invocation.verbose with
  | .error reason, false => .aborted reason
  | _, _ =>
    match invocation.command? directory with
    | none => .misused
    | some command =>
      match command.run parse adapter columns invocation.verbose settings with
      | .ok report => .finished report
      | .error reason => .aborted reason

/-- Runs the program on the words of a command line, in a directory, on a terminal with the given
number of columns. -/
def run (columns : Nat) (environment : List (String × String)) (directory : Entry)
    (words : List String) : Outcome :=
  match Invocation.ofWords? words with
  | none => .misused
  | some invocation => invocation.run parse adapter columns environment directory

end MethodSig.CommandLine
