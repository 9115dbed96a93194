/-
# Room for nested documents

Readers that call themselves for every container inside another one stop where the stack
ends.  How far that is depends on who asked for the document, and differs between the readers
of JSON and of YAML.  So the room is given with the document; what is said about a reader
holds whatever it is.
-/

namespace ImageTrust

/-- How many containers may be open at once. A document as the library writes it always fits. -/
structure Room where
  json : Nat
  yaml : Nat
  fits : 5 ≤ json

namespace Room

/-- What a program of few frames leaves of a stack of a thousand. -/
def standard : Room := ⟨990, 480, by decide⟩

end Room

end ImageTrust
