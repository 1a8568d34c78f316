import Defib.Restore.Run

/-!
# The device under a restore

A device is its flash and its RAM.  A command that erases clears every erase block that overlaps
its range, a command that writes copies bytes from RAM, and a download puts a file of the server
into RAM.  UBI commands and all others leave the device as it is: this is the device for raw
partitions.
-/

namespace Defib

/-- The contents of flash and RAM. -/
@[ext] structure Device where
  flash : ℕ → UInt8
  ram : ℕ → UInt8

/-- The erase block of address `x` overlaps the range. -/
def BlockOverlaps (block off len x : ℕ) : Prop :=
  max off (x / block * block) < min (off + len) ((x / block + 1) * block)

instance (block off len x : ℕ) : Decidable (BlockOverlaps block off len x) :=
  inferInstanceAs (Decidable (_ < _))

namespace Device

/-- Clear the erase blocks that overlap the range. -/
def erase (d : Device) (erased : UInt8) (block off len : ℕ) : Device :=
  { d with flash := fun x => if BlockOverlaps block off len x then erased else d.flash x }

/-- Copy bytes from RAM to flash. -/
def write (d : Device) (addr off size : ℕ) : Device :=
  { d with
    flash := fun x => if off ≤ x ∧ x < off + size then d.ram (addr + (x - off)) else d.flash x }

/-- Put a file into RAM. -/
def load (d : Device) (addr : ℕ) (data : List UInt8) : Device :=
  { d with
    ram := fun a =>
      if addr ≤ a ∧ a < addr + data.length then data.getD (a - addr) 0 else d.ram a }

/-- What a command does, with the files of the server and the byte that erased flash reads as.  A
command that is not known does nothing. -/
def exec (erased : UInt8) (files : Dict Text (List UInt8)) (d : Device) : Exchange → Device
  | (.tftpboot addr name, r) =>
      if unknownCommand r.out then d else d.load addr ((files.get? name).getD [])
  | (.tftp addr name, _) => d.load addr ((files.get? name).getD [])
  | (.nandErase offset size, _) => d.erase erased 0x20000 offset size.toNat
  | (.nandWrite addr offset size, _) => d.write addr offset size
  | (.sfErase offset size, _) => d.erase erased 0x10000 offset size
  | (.sfWrite addr offset size, _) => d.write addr offset size
  | (.mmcErase blockOff blockCnt, _) => d.erase erased 512 (blockOff * 512) (blockCnt * 512)
  | (.mmcWrite addr blockOff blockCnt, _) => d.write addr (blockOff * 512) (blockCnt * 512)
  | _ => d

/-- The device after a dialogue. -/
def execAll (erased : UInt8) (files : Dict Text (List UInt8)) (d : Device) (xs : List Exchange) :
    Device := xs.foldl (exec erased files) d

end Device

end Defib
