import SceneScript.Main
import SceneScript.Proofs.Calls
import SceneScript.Proofs.Effect
import SceneScript.Proofs.Scope
import SceneScript.Proofs.Bytes
import SceneScript.Proofs.Check
import SceneScript.Proofs.Blocks
import SceneScript.Proofs.Layout
import SceneScript.Proofs.Additions
import SceneScript.Proofs.Channels
import SceneScript.Proofs.Columns
import SceneScript.Proofs.Course
import SceneScript.Proofs.Exact
import SceneScript.Proofs.Placement
import SceneScript.Proofs.Naming
import SceneScript.Proofs.Strictness
import SceneScript.Proofs.Joining
import SceneScript.Proofs.Atomic
import SceneScript.Proofs.Affine
import SceneScript.Proofs.Report
import SceneScript.Proofs.LocalFrame
import SceneScript.Proofs.Reads
import SceneScript.Proofs.Packing
import SceneScript.Proofs.Rotation
import SceneScript.Proofs.Rounding
import SceneScript.Proofs.Squares
import SceneScript.Proofs.Axis
import SceneScript.Proofs.Ranks
import SceneScript.Proofs.Nearest
import SceneScript.Proofs.Digits
import SceneScript.Proofs.Integers
import SceneScript.Proofs.Spelling
import SceneScript.Proofs.Reals
import SceneScript.Proofs.Printing
import SceneScript.Proofs.Skeleton
import SceneScript.Proofs.Indentation
import SceneScript.Proofs.Dumps
import SceneScript.Proofs.Tokens
import SceneScript.Proofs.Tokens
