import Remanence.Foundation.Bytes

/-!
# Values of the CBOR library

The `ciborium` crate reads and writes CBOR values. The formats only rely on
a written value being read back whole.
-/

namespace Remanence

open Foundation

/-- Values of the CBOR library; a float is its bit pattern. -/
inductive CborValue where
  | integer (value : Int)
  | bytes (value : Bytes)
  | float (bits : UInt64)
  | text (value : String)
  | bool (value : Bool)
  | null
  | tag (number : UInt64) (value : CborValue)
  | array (items : List CborValue)
  | map (entries : List (CborValue×CborValue))

structure Ciborium where
  intoWriter : CborValue → Except String Bytes
  fromReader : Bytes → Except String (CborValue×ℕ)

/-- A written value is read back whole. -/
def Ciborium.Lawful (cbor : Ciborium) : Prop :=
  ∀ value bytes, cbor.intoWriter value=.ok bytes → cbor.fromReader bytes=.ok (value,bytes.length)

end Remanence
