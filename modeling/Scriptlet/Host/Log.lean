import Scriptlet.Path
import Scriptlet.Host.Dialogue

namespace Scriptlet.Dialogue

/-- Makes the directory that a file is to stand in, if its path names one. -/
def prepareParent (path : String) : Dialogue (Except Refusal Unit) :=
  match Path.parent? path with
  | none | some "" => done (.ok ())
  | some directory => request (.createDirectories directory)

/-- Sends diagnostic records to the end of a file, which is made if it is missing. -/
def openLog (path : String) : Dialogue (Except Refusal Unit) :=
  (prepareParent path).bind fun
    | .error reason => done (.error reason)
    | .ok () => request (.openLog path)

end Scriptlet.Dialogue
