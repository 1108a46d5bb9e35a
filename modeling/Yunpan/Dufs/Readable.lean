import Yunpan.Dufs.Permitted

/-!
# What a request opens

The files that a request reads, whatever it is answered: the one that it asks for, where
the guard lets its visitor in, and for an archive what is below directories that are open.
-/

namespace Yunpan.Dufs

open Program

namespace Server

variable {env : Environment} {server : Server} {request : Request}
  {readable : Path Text → Prop}

end Server

end Yunpan.Dufs
