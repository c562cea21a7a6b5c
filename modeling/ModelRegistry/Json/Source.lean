/-!
# The source of a JSON document

A document is read from characters and stray bytes: `none` stands for a byte that belongs to no
UTF-8 encoded character. A text has no stray bytes, a file may.
-/

namespace ModelRegistry.Json

abbrev Source := List (Option Char)

namespace Source

def ofText (s : String) : Source :=
  s.toList.map some

def decode (bytes : ByteArray) (start : Nat) : Source :=
  if _h : start < bytes.size then
    match bytes.utf8DecodeChar? start with
    | some c => some c :: decode bytes (start + c.utf8Size)
    | none => none :: decode bytes (start + 1)
  else []
termination_by bytes.size - start
decreasing_by
  · have := c.utf8Size_pos; omega
  · omega

/-- The characters of a file; a byte that starts no character is stray. -/
def ofBytes (bytes : ByteArray) : Source :=
  decode bytes 0

def byteLength (s : Source) : Nat :=
  s.foldl (fun n g => n + (g.map Char.utf8Size).getD 1) 0

end Source

end ModelRegistry.Json
