import ClassWeave.Access
import ClassWeave.Annotation
import ClassWeave.Attribute
import ClassWeave.Body.Basic
import ClassWeave.Body.Emission
import ClassWeave.Body.Listing
import ClassWeave.Bytes.BigEndian
import ClassWeave.Bytes.Cursor
import ClassWeave.Bytes.Reader
import ClassWeave.ClassFile.Basic
import ClassWeave.ClassFile.Blueprint
import ClassWeave.ClassFile.Codec
import ClassWeave.Command.Arguments
import ClassWeave.Command.Document
import ClassWeave.Command.Failure
import ClassWeave.Command.Inspect
import ClassWeave.Command.Program
import ClassWeave.Command.Table
import ClassWeave.Command.Weave
import ClassWeave.Descriptor
import ClassWeave.Digest.Sha1
import ClassWeave.Entity.Identity
import ClassWeave.Entity.System
import ClassWeave.Error
import ClassWeave.FiniteMap
import ClassWeave.Instruction
import ClassWeave.Main
import ClassWeave.Malformation
import ClassWeave.Member
import ClassWeave.Pool.Basic
import ClassWeave.Pool.Codec
import ClassWeave.Pool.Constant
import ClassWeave.Pool.Intern
import ClassWeave.Proofs.Annotation
import ClassWeave.Proofs.Attribute
import ClassWeave.Proofs.Body.Emission
import ClassWeave.Proofs.Body.Patching
import ClassWeave.Proofs.Bytes.Cursor
import ClassWeave.Proofs.Bytes.Reading
import ClassWeave.Proofs.ClassFile.Codec
import ClassWeave.Proofs.ClassFile.Questions
import ClassWeave.Proofs.ClassFile.RoundTrip
import ClassWeave.Proofs.ClassFile.Texts
import ClassWeave.Proofs.Command.Inspect
import ClassWeave.Proofs.Descriptor
import ClassWeave.Proofs.Descriptor.Grammar
import ClassWeave.Proofs.Entity.Identity
import ClassWeave.Proofs.Except
import ClassWeave.Proofs.Instruction.Tiling
import ClassWeave.Proofs.Machine.Code
import ClassWeave.Proofs.Machine.Heap
import ClassWeave.Proofs.Machine.Instr
import ClassWeave.Proofs.Machine.Library
import ClassWeave.Proofs.Machine.Memory
import ClassWeave.Proofs.Machine.Step
import ClassWeave.Proofs.Packed.Accesses
import ClassWeave.Proofs.Packed.Accessors
import ClassWeave.Proofs.Packed.Apply
import ClassWeave.Proofs.Packed.Behavior
import ClassWeave.Proofs.Packed.Capacity
import ClassWeave.Proofs.Packed.Code
import ClassWeave.Proofs.Packed.Failures
import ClassWeave.Proofs.Packed.Layout
import ClassWeave.Proofs.Packed.LeastLayout
import ClassWeave.Proofs.Packed.Overflow
import ClassWeave.Proofs.Packed.Storage
import ClassWeave.Proofs.Packed.Values
import ClassWeave.Proofs.Pool.Codec
import ClassWeave.Proofs.Pool.Growth
import ClassWeave.Proofs.Pool.Interning
import ClassWeave.Proofs.Pooled.Apply
import ClassWeave.Proofs.Pooled.Reset
import ClassWeave.Proofs.Run.Accounting
import ClassWeave.Proofs.Run.Constructors
import ClassWeave.Proofs.Run.Index
import ClassWeave.Proofs.Run.Loading
import ClassWeave.Proofs.Run.Locality
import ClassWeave.Proofs.Run.Nested
import ClassWeave.Proofs.Run.Rerun
import ClassWeave.Proofs.Run.Schedule
import ClassWeave.Proofs.Stateful
import ClassWeave.Proofs.Text.ModifiedUtf8
import ClassWeave.Proofs.Text.Sequences
import ClassWeave.Proofs.Tree.Directory
import ClassWeave.Proofs.Weaving.Arrangement
import ClassWeave.Proofs.Weaving.Conservative
import ClassWeave.Proofs.Weaving.Conserved
import ClassWeave.Proofs.Weaving.Construction
import ClassWeave.Proofs.Weaving.Distinct
import ClassWeave.Proofs.Weaving.Edit
import ClassWeave.Proofs.Weaving.Failures
import ClassWeave.Proofs.Weaving.Fingerprint
import ClassWeave.Proofs.Weaving.Growth
import ClassWeave.Proofs.Weaving.Locality
import ClassWeave.Proofs.Weaving.Obstacles
import ClassWeave.Proofs.Weaving.Overflow
import ClassWeave.Proofs.Weaving.Preview
import ClassWeave.Proofs.Weaving.Rescan
import ClassWeave.Proofs.Weaving.Resolvable
import ClassWeave.Proofs.Weaving.Scan
import ClassWeave.Proofs.Weaving.Sound
import ClassWeave.Proofs.Weaving.Transform
import ClassWeave.Proofs.Weaving.Verified
import ClassWeave.Run.Basic
import ClassWeave.Run.Report
import ClassWeave.Run.Storage
import ClassWeave.Strategy
import ClassWeave.Text.Blank
import ClassWeave.Text.CodePoints
import ClassWeave.Text.DisplayWidth
import ClassWeave.Text.Hex
import ClassWeave.Text.ModifiedUtf8
import ClassWeave.Text.Wrapping
import ClassWeave.Tree.Directory
import ClassWeave.Tree.FileTree
import ClassWeave.Tree.Path
import ClassWeave.Weaving.Edit
import ClassWeave.Weaving.Growth
import ClassWeave.Weaving.Layout
import ClassWeave.Weaving.Packed
import ClassWeave.Weaving.Pooled
import ClassWeave.Weaving.Scan
import ClassWeave.Weaving.Settings
import ClassWeave.Weaving.Transform
import ClassWeave.Weaving.TypeIndex
import ClassWeave.Weaving.Validation
