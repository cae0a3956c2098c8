import NixCache.Oci.Proofs.Sample
import NixCache.Oci.Target
/-!
# One name for the package

Whether the URLs, the scope of the token and the package of GitHub mean the same repository.
-/

namespace NixCache.Oci

open NixCache.Lib NixCache.Lib.Result NixCache.Core

namespace LowercaseLaws

variable {toLowercase : String → String}

end LowercaseLaws

section

variable {X : OciCrates}

end

end NixCache.Oci
