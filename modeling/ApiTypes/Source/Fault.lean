/-! Places where a text cannot be read, and what is reported about them. -/

namespace ApiTypes

/-- Why a text cannot be read on. -/
inductive TextFault where
  /-- The text ends too early. -/
  | unfinished
  /-- The text breaks the rules of its format. -/
  | malformed
deriving DecidableEq

/-- A place that cannot be read, by what is reported when something is looked for there. -/
structure Fault where
  /-- What a reader of the value reports. -/
  onRead : TextFault
  /-- What is reported when the value is only passed over, if anything is. -/
  onSkip : Option TextFault
  /-- What is reported when a name has to stand here, which the first character decides. -/
  onName : TextFault := .malformed
  /-- What is reported when the collection has to end here. -/
  onEnd : TextFault := .malformed

namespace Fault

/-- The place where a text ends for good: nothing follows it. -/
def ending (fault : TextFault) : Fault := { onRead := fault, onSkip := some fault, onName := fault }

/-- The end of a text after a complete part of a collection. -/
def unclosed : Fault := { ending .unfinished with onEnd := .unfinished }

/-- A word that breaks off after its first character. -/
def insideWord (fault : TextFault) : Fault := { onRead := fault, onSkip := some fault }

/-- A value that breaks no rule of the format, but that no reader takes. -/
def unreadable : Fault := { onRead := .malformed, onSkip := none }

end Fault

end ApiTypes
