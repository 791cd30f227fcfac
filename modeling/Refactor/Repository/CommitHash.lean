import Refactor.Error
import Refactor.Text.Bytes
import Refactor.Text.Hex

/-!
# Commit hashes

A commit is named by its hash or by the start of it: between 4 and 40 hexadecimal digits, in
letters of any case.
-/

namespace Refactor.Repository

/-- Checks that a text can be a commit hash. Its length is counted in bytes and checked first. -/
def validateHash (hash : String) : Except Error Unit :=
  let length := Text.byteLength hash.toList
  if hash = "" then .error .emptyHash
  else if length < 4 ∨ 40 < length then .error (.hashLength length)
  else if hash.toList.all Text.isHexDigit then .ok ()
  else .error (.hashFormat hash)

end Refactor.Repository
