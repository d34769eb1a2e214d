import LayoutPlanner.Vocabulary

/-!
# Memory formats

A format names the order in which the axes of a tensor lie in memory: `b` batch, `f` feature, and
`w`, `z`, `y`, `x` spatial.  Plain formats list the axes.  Blocked formats split the feature axis,
and sometimes the batch axis, into inner blocks of fixed size.  `any` stands for a choice that has
not been made yet.
-/

namespace LayoutPlanner

inductive Format where
  | any
  | bfyx
  | yxfb
  | byxf
  | bfzyx
  | bfwzyx
  | bFsYxFsv16
  | bFsYxFsv32
  | bsFsYxBsv32Fsv16
  | bFsZyxFsv16
  deriving DecidableEq

namespace Format

/-- Number of axes the format lays out; none while no format is chosen. -/
def axes? : Format → Option Nat
  | any => none
  | bfyx | yxfb | byxf | bFsYxFsv16 | bFsYxFsv32 | bsFsYxBsv32Fsv16 => some 4
  | bfzyx | bFsZyxFsv16 => some 5
  | bfwzyx => some 6

/-- Number of axes a tensor of the given rank is stored with.  Ranks below four are stored with
four axes. -/
def axesOfRank (rank : Nat) : Nat :=
  max rank 4

/-- A format fits a rank when it lays out exactly the axes that rank is stored with. -/
def fits (format : Format) (rank : Nat) : Bool :=
  format.axes? == some (axesOfRank rank)

def isChosen (format : Format) : Bool :=
  format != any

def isBlocked : Format → Bool
  | bFsYxFsv16 | bFsYxFsv32 | bsFsYxBsv32Fsv16 | bFsZyxFsv16 => true
  | any | bfyx | yxfb | byxf | bfzyx | bfwzyx => false

/-- Blocked formats whose kernels index the spatial axes without padding. -/
def rejectsSpatialPadding : Format → Bool
  | bFsYxFsv16 | bsFsYxBsv32Fsv16 | bFsZyxFsv16 => true
  | any | bfyx | yxfb | byxf | bfzyx | bfwzyx | bFsYxFsv32 => false

/-- The canonical plain format of a rank.  Ranks above six have none of their own and take the
four-axis one. -/
def defaultFor (rank : Nat) : Format :=
  match axesOfRank rank with
  | 5 => bfzyx
  | 6 => bfwzyx
  | _ => bfyx

/-- Plain formats to try, in this order, when a node has no legal layout. -/
def fallbacksFor (rank : Nat) : List Format :=
  match axesOfRank rank with
  | 5 => [bfzyx]
  | 6 => [bfwzyx]
  | _ => [bfyx, yxfb, byxf]

/-- The format itself where it fits the rank, and the rank's default otherwise. -/
def adaptTo (format : Format) (rank : Nat) : Format :=
  if format.fits rank then format else defaultFor rank

/-- A preference: the first format unless it is `any`. -/
def orElse (preferred fallback : Format) : Format :=
  if preferred = any then fallback else preferred

def name : Format → String
  | any => "any"
  | bfyx => "bfyx"
  | yxfb => "yxfb"
  | byxf => "byxf"
  | bfzyx => "bfzyx"
  | bfwzyx => "bfwzyx"
  | bFsYxFsv16 => "b_fs_yx_fsv16"
  | bFsYxFsv32 => "b_fs_yx_fsv32"
  | bsFsYxBsv32Fsv16 => "bs_fs_yx_bsv32_fsv16"
  | bFsZyxFsv16 => "b_fs_zyx_fsv16"

/-- Capitalised name, used where a structure is shown field by field. -/
def title : Format → String
  | any => "Any"
  | bfyx => "Bfyx"
  | yxfb => "Yxfb"
  | byxf => "Byxf"
  | bfzyx => "Bfzyx"
  | bfwzyx => "Bfwzyx"
  | bFsYxFsv16 => "BFsYxFsv16"
  | bFsYxFsv32 => "BFsYxFsv32"
  | bsFsYxBsv32Fsv16 => "BsFsYxBsv32Fsv16"
  | bFsZyxFsv16 => "BFsZyxFsv16"

instance : Vocabulary Format where
  members := [any, bfyx, yxfb, byxf, bfzyx, bfwzyx, bFsYxFsv16, bFsYxFsv32, bsFsYxBsv32Fsv16,
    bFsZyxFsv16]
  word := name

instance : ToString Format := ⟨name⟩

end Format

end LayoutPlanner
