import SchemaLint.Event
import SchemaLint.Terminal.EscapeSequence

/-! Events as lines on a console, one line for each. -/
namespace SchemaLint

def Level.label : Level → String
  | .success => "[SUCCESS]"
  | .info => "[INFO]"
  | .error => "[ERROR]"

namespace Terminal

/-- Green, cyan and red. -/
def color : Level → String
  | .success => "32"
  | .info => "36"
  | .error => "31"

/-- A line as a stream takes it: one that does not keep escape sequences drops
all of them, wherever they come from. -/
def printed (keepsEscapes : Bool) (line : String) : String :=
  (if keepsEscapes then line else String.ofList (stripEscapes line.toList)) ++ "\n"

structure Console where
  /-- Whether the labels are coloured. -/
  colored : Bool := true
  keepsEscapes : Bool := true
  deriving DecidableEq, Repr

namespace Console

def label (console : Console) (level : Level) : String :=
  if console.colored then style (color level) ++ style "1" ++ level.label ++ style "0"
  else level.label

def line (console : Console) : Event → String
  | .message level text => console.label level ++ " " ++ text
  | .separator text => text

/-- What is printed for a signal. Printed lines stay, so clearing prints nothing. -/
def respond (console : Console) : Signal → String
  | .clear => ""
  | .event event => printed console.keepsEscapes (console.line event)

def output (console : Console) (signals : List Signal) : String :=
  String.join (signals.map console.respond)

end Console
end Terminal
end SchemaLint
