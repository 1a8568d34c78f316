import Defib.Host.ScanFlash

/-!
# Scanning over a link that loses packets

`scan_flash` against `handle_scan`.  The batches of a scan carry no sector numbers, and the host
numbers what it receives: a lost batch moves every later report to a lower sector, and the ACK that
ends the scan also ends the receive loop, whether or not all sectors are in.
-/

namespace Defib

end Defib
