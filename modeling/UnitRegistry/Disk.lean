import UnitRegistry.Assoc
import UnitRegistry.Text
/-!
One directory of files, without subdirectories. A path names a file of it, possibly behind steps that stay in
the directory.
-/
set_option autoImplicit false

namespace UnitRegistry

structure Disk where
  files : List (Text × Text) := []
deriving DecidableEq, Inhabited

namespace Disk

def longestName : Nat := 255
def longestPath : Nat := 4095

-- The name of the file that a path leads to. A path ends at its first zero byte.
def resolve (path : Text) : Option Text :=
  let path := path.untilZero
  let parts := path.splitOn Text.slash
  let name := parts.getLastD []
  let stays := parts.dropLast.all (fun part => part == [] || part == [Text.dot]) && path.head? != some Text.slash
  if stays ∧ name ≠ [] ∧ name ≠ [Text.dot] ∧ name ≠ [Text.dot, Text.dot] ∧ name.length ≤ longestName ∧
      path.length ≤ longestPath then some name
  else none

def read? (d : Disk) (name : Text) : Option Text := d.files.lookup name

def write (d : Disk) (name content : Text) : Disk := ⟨Assoc.put name content d.files⟩

def touch (d : Disk) (name : Text) : Disk := d.write name ((d.read? name).getD [])

def append (d : Disk) (name content : Text) : Disk := d.write name ((d.read? name).getD [] ++ content)

def overwrite (d : Disk) (name : Text) (offset : Nat) (content : Text) : Disk :=
  let old := (d.read? name).getD []
  d.write name (List.rightpad offset 0 (old.take offset) ++ content ++ old.drop (offset + content.length))

end Disk

end UnitRegistry
