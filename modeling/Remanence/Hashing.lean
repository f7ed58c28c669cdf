import Remanence.Foundation.Bytes

/-!
# Hash functions the formats rely on

SHA-256 and HMAC-SHA-256 come from third-party crates. The formats only use
them as functions with a fixed output length, so they are parameters of the
model.
-/

namespace Remanence

open Foundation

structure HashFunctions where
  sha256 : Bytes → FixedBytes 32
  hmacSha256 : Bytes → Bytes → FixedBytes 32

end Remanence
