import ClassForge.Digest.Sha256
import ClassForge.Member.Method
import ClassForge.Text.Quoted
import ClassForge.Text.Uppercase

/-!
# Names that a build makes up

The code of a method that is moved aside needs a name, and so does a type made only to tell two
constructors apart. Such a name is the name it comes from, a word for its purpose, and a short
fingerprint of all that tells it from others of that purpose. Fingerprints depend on nothing but
their parts, so a build repeats exactly.
-/

namespace ClassForge

/-- The first four bytes, in hexadecimal, of the digest of the parts, each ended by a zero
byte. -/
def fingerprint (parts : List String) : String :=
  String.join (((Sha256.digest (parts.flatMap fun s => s.toUTF8.toList ++ [0])).take 4).map byte)
where
  /-- Two hexadecimal digits. -/
  byte (b : UInt8) : String :=
    if b.toNat < 16 then "0" ++ Text.hexadecimal b.toNat else Text.hexadecimal b.toNat

/-- A name, the word for the purpose and the fingerprint of some parts. -/
def derivedName (name purpose : String) (parts : List String) : String :=
  name ++ "$" ++ purpose ++ "$" ++ fingerprint parts

/-- How a method is named whose code is moved aside. -/
inductive Naming where
  /-- By its name, the word, and the fingerprint of its owner, name and descriptor. -/
  | suffixed (word : String)
  /-- By the word and its name with the first letter in upper case. -/
  | prefixed (word : String)
deriving DecidableEq

namespace Naming

/-- The naming used unless another is asked for. -/
def default : Naming := suffixed "original"

instance : Inhabited Naming := ⟨default⟩

/-- The name for a method. -/
def apply (m : Method) : Naming → String
  | suffixed word => derivedName m.name word [m.owner, m.name, m.descriptor]
  | prefixed word => word ++ Text.capitalized m.name

end Naming

end ClassForge
