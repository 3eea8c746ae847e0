import MethodSig.Console.Markup
import MethodSig.Console.Wrap
import MethodSig.Log

/-!
# Printing to a terminal

What is printed is broken into lines that fit into the terminal. Messages hold markup; the
messages of log entries are plain text and stand in a column of their own beside their level.
-/

namespace MethodSig.Console

def message (columns : Nat) (text : String) : Except Markup.UnopenedStyle (List (List Char)) :=
  (Markup.render text.toList).map (Wrap.lines columns .fold)

/-- The columns in front of the message of a log entry. -/
def levelColumns : Nat := 9

def logEntry (columns : Nat) (event : Event) : List (List Char) :=
  match Wrap.lines (columns - levelColumns) .fold event.message.toList with
  | [] => []
  | first :: rest =>
    (Wrap.padEnd levelColumns event.level.name.toList ++ first) ::
      rest.map (List.replicate levelColumns ' ' ++ ·)

/-- The lines of the entries of a log at or above a level. -/
def log (columns : Nat) (level : Level) (events : List Event) : List (List Char) :=
  (atLevel level events).flatMap (logEntry columns)

end MethodSig.Console
