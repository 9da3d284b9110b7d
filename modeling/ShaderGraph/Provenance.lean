import ShaderGraph.Digest.Sha256
import ShaderGraph.Library

/-!
# Build records

Which sources a program was built from: hashes of the graph text and of the
library's canonical text, and the version of the compiler.
-/

namespace ShaderGraph

open ShaderGraph.Json

/-- The version of this compiler. -/
def compilerVersion : String := "0.1.0"

/-- The record of a build. -/
structure Provenance where
  graphHash : String
  libraryFingerprint : String
deriving DecidableEq, Repr

/-- The hash of a text. -/
def textHash (s : String) : String := Digest.hexText (Digest.sha256 s.toUTF8.toList)

/-- The record of a build of a graph text with a library. -/
def provenance (graphText : String) (lib : Library) : Provenance :=
  ⟨textHash graphText, textHash lib.canonicalText⟩

/-- The text of a build record. -/
def Provenance.text (p : Provenance) : String :=
  prettyObject [("compiler_version", .string compilerVersion), ("graph_hash", .string p.graphHash),
    ("library_fingerprint", .string p.libraryFingerprint)] ++ "\n"

end ShaderGraph
