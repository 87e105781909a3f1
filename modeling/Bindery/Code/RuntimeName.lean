import Bindery.Code.Name

/-!
# Names of the binding runtime

The properties and methods by which constructed code and the binding runtime know each other.
-/

namespace Bindery.RuntimeName

/-! ## Members of the document -/

def bindings : Name := .inPublic "_bindings"

def watchers : Name := .inPublic "_watchers"

def bindingsByDestination : Name := .inPublic "_bindingsByDestination"

def bindingsBeginWithWord : Name := .inPublic "_bindingsBeginWithWord"

/-! ## Members of bindings and watchers -/

def twoWayCounterpart : Name := .inPublic "twoWayCounterpart"

def parentWatcher : Name := .inPublic "parentWatcher"

def addChild : Name := .inPublic "addChild"

def updateParent : Name := .inPublic "updateParent"

def execute : Name := .inPublic "execute"

/-! ## Other names -/

/-- An element of an array, whose number is computed. -/
def arrayIndex : Name := .runtime

def objectType : Name := .inPublic "Object"

def arrayType : Name := .inPublic "Array"

end Bindery.RuntimeName
