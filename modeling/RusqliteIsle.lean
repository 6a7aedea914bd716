import RusqliteIsle.Isle.Agreement
import RusqliteIsle.Isle.Alive
import RusqliteIsle.Isle.Backpressure
import RusqliteIsle.Isle.Cancel
import RusqliteIsle.Isle.Clock
import RusqliteIsle.Isle.Database
import RusqliteIsle.Isle.Drop
import RusqliteIsle.Isle.Interrupt
import RusqliteIsle.Isle.Spawn
import RusqliteIsle.Isle.Trace
import RusqliteIsle.Pool.Bound
import RusqliteIsle.Pool.Calls
import RusqliteIsle.Pool.Capacity
import RusqliteIsle.Pool.Closed
import RusqliteIsle.Pool.Deadline
import RusqliteIsle.Pool.Factory
import RusqliteIsle.Pool.Service
import RusqliteIsle.Pool.Serving
