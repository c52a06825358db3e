/-!
# What the wrapper says about itself

Besides doing its work, the wrapper can tell what it does. A message has a level, which says how
much it matters, and a topic, which says where it comes from; whether it is shown is decided by a
filter over both.
-/

namespace CompilerWrapper

/-- How much a message matters, from most to least. -/
inductive Level where
  | error | warn | info | debug | trace
deriving DecidableEq, Repr

namespace Level

/-- The number of levels that matter at least as much. -/
def rank : Level → Nat
  | error => 1
  | warn => 2
  | info => 3
  | debug => 4
  | trace => 5

/-- The name of a level in a filter. -/
def name : Level → String
  | error => "error"
  | warn => "warn"
  | info => "info"
  | debug => "debug"
  | trace => "trace"

/-- All levels, from most to least important. -/
def all : List Level := [error, warn, info, debug, trace]

end Level

/-- The parts of the program that have something to tell. -/
inductive Topic where
  | program | flags | wrapper | install
deriving DecidableEq, Repr

/-- The name of a topic in a filter. -/
def Topic.name : Topic → String
  | program => "ccwrap"
  | flags => "ccwrap::config"
  | wrapper => "ccwrap::wrapper"
  | install => "ccwrap::install"

/-- Something the program tells about its work. -/
structure Message where
  level : Level
  topic : Topic
  text : String
deriving DecidableEq, Repr

end CompilerWrapper
