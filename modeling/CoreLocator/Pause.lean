/-! Waiting between two steps. -/
namespace CoreLocator

class Pause (m : Type → Type) where
  pause : (milliseconds : UInt64) → m Unit

end CoreLocator
