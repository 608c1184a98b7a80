import Orchestrator.Severity
/-!
Text on a terminal: colors, and the forms in which messages, pairs and lists are shown.
-/

namespace Orchestrator.Terminal

inductive Line
  | out (text : String)
  | err (text : String)
  deriving DecidableEq, Repr

inductive Style
  | plain
  | bold
  | dimmed
  | red
  | green
  | yellow
  | cyan
  | boldGreen
  | boldCyan
  deriving DecidableEq, Repr

/-- The numbers that select a style; the plain style has none. -/
def Style.codes : Style → String
  | plain => ""
  | bold => "1"
  | dimmed => "2"
  | red => "31"
  | green => "32"
  | yellow => "33"
  | cyan => "36"
  | boldGreen => "1;32"
  | boldCyan => "1;36"

def reset : List Char := [Char.ofNat 0x1B, '[', '0', 'm']

/-- Selects the style again after every reset within a text. -/
def reselect (select : List Char) : List Char → List Char
  | [] => []
  | '\x1b' :: '[' :: '0' :: 'm' :: rest => reset ++ select ++ reselect select rest
  | c :: rest => c :: reselect select rest

/-- Shows a text in a style where colors are on. -/
def paint (color : Bool) (style : Style) (text : String) : String :=
  if color && style != .plain then
    let select := [Char.ofNat 0x1B, '['] ++ style.codes.toList ++ ['m']
    String.ofList (select ++ reselect select text.toList ++ reset)
  else text

/-- Fills a text up with blanks to a width in characters. -/
def pad (width : Nat) (text : String) : String :=
  text ++ String.ofList (List.replicate (width - text.length) ' ')

def success (color : Bool) (message : String) : Line := .out (paint color .green "✓" ++ " " ++ message)

def warning (color : Bool) (message : String) : Line := .out (paint color .yellow "⚠" ++ " " ++ message)

def complaint (color : Bool) (message : String) : Line := .err (paint color .red "✗" ++ " " ++ message)

/-- A title with a rule of its width under it. -/
def header (color : Bool) (title : String) : List Line :=
  [.out "", .out (paint color .bold title),
   .out (paint color .dimmed (String.ofList (List.replicate title.length '─')))]

def sectionHead (color : Bool) (title : String) : List Line := [.out "", .out (paint color .boldCyan title)]

def pair (color : Bool) (key value : String) : Line := .out ("  " ++ paint color .dimmed key ++ ": " ++ value)

def severityStyle : Severity → Style
  | .passive => .dimmed
  | .present => .plain
  | .eagerPresent | .eagerPassive => .cyan
  | .mandatory => .boldGreen
  | .excluded => .red

def severity (color : Bool) (s : Severity) : String := paint color (severityStyle s) s.name

/-- The items with commas between them, or a dash where that leaves nothing to be seen. -/
def enumeration (color : Bool) (items : List String) : String :=
  let joined := ", ".intercalate items
  if joined.isEmpty then paint color .dimmed "-" else joined

end Orchestrator.Terminal
