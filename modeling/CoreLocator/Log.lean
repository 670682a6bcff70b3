/-! Log records, in the order in which they are made. -/
namespace CoreLocator

inductive Log.Level
  | debug
  | info
  | warn
  deriving DecidableEq, Repr

structure Log.Record where
  level : Log.Level
  text : String
  deriving DecidableEq, Repr

/-- Where records go. -/
class Log (m : Type → Type) where
  record : Log.Record → m Unit

namespace Log

def debug {m : Type → Type} [Log m] (text : String) : m Unit := record ⟨.debug, text⟩
def info {m : Type → Type} [Log m] (text : String) : m Unit := record ⟨.info, text⟩
def warn {m : Type → Type} [Log m] (text : String) : m Unit := record ⟨.warn, text⟩

end Log
end CoreLocator
