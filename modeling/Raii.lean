import Raii.Policy
import Raii.World
import Raii.Holder
import Raii.UniqueRc
import Raii.Frame
import Raii.Client
import Raii.Custody
import Raii.Ownership
import Raii.Reentrancy
import Raii.Burial
import Raii.Destructors
import Raii.Association
import Raii.Conversion
import Raii.Emptiness
import Raii.Foundation.Comparison
import Raii.Comparison
import Raii.Exchange
import Raii.ReferenceDeleters
import Raii.UniquePtr
import Raii.StdUniquePtr
import Raii.Heap
import Raii.Teardown
import Raii.Handover
import Raii.HeapProgram
import Raii.NoLeak
import Raii.DerivedComparison
import Raii.Foundation.Coroutine
import Raii.Generator
import Raii.GeneratorOwnership
import Raii.RangeFor
import Raii.Foundation.Boxes
import Raii.Disposal
import Raii.Foundation.Indirection
import Raii.Storage
import Raii.Elements
import Raii.ValueSemantics
