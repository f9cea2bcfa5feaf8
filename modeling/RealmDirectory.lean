import RealmDirectory.Main
import RealmDirectory.Proofs.Query.Placeholder
import RealmDirectory.Proofs.Query.Binding
import RealmDirectory.Proofs.Query.Asking
import RealmDirectory.Proofs.Query.Opacity
import RealmDirectory.Proofs.Query.Clause
import RealmDirectory.Proofs.Query.Pattern
import RealmDirectory.Proofs.Query.Reading
import RealmDirectory.Proofs.Query.Filling
import RealmDirectory.Proofs.Query.Meaning
import RealmDirectory.Proofs.Query.Guard
import RealmDirectory.Proofs.Query.Lookup
import RealmDirectory.Proofs.Password.Bcrypt
import RealmDirectory.Proofs.Password.Argon2
import RealmDirectory.Proofs.Password.Pbkdf2
import RealmDirectory.Proofs.Password.Engine
import RealmDirectory.Proofs.Directory.Credentials
import RealmDirectory.Proofs.Query.Marks
import RealmDirectory.Proofs.Query.Numbering
import RealmDirectory.Proofs.Directory.Consistency
import RealmDirectory.Proofs.Directory.History
import RealmDirectory.Proofs.Query.OnePass
import RealmDirectory.Proofs.Query.Rendering
import RealmDirectory.Proofs.Directory.FailClosed
import RealmDirectory.Proofs.Directory.Sending
import RealmDirectory.Proofs.Directory.Counting
import RealmDirectory.Proofs.Directory.Interleaving
import RealmDirectory.Proofs.Directory.Crossing
import RealmDirectory.Proofs.Directory.Ownership
import RealmDirectory.Proofs.Query.Places
import RealmDirectory.Proofs.Query.Alignment
import RealmDirectory.Proofs.Directory.Lookups
import RealmDirectory.Proofs.Password.Families
import RealmDirectory.Proofs.Directory.Pools
import RealmDirectory.Proofs.Query.Wildcard
import RealmDirectory.Proofs.Query.Paging
import RealmDirectory.Proofs.Query.Segments
import RealmDirectory.Proofs.Query.Ordering
import RealmDirectory.Proofs.Query.Comments
import RealmDirectory.Proofs.Query.Mentioning
import RealmDirectory.Proofs.Query.FixedStatements
import RealmDirectory.Proofs.Query.Enumeration
import RealmDirectory.Proofs.Query.Terminator
import RealmDirectory.Proofs.Query.CountQuery
import RealmDirectory.Proofs.Directory.UserCounts
import RealmDirectory.Proofs.Password.KeyStream
import RealmDirectory.Proofs.Text.Numeral
import RealmDirectory.Proofs.Password.StoredForm
import RealmDirectory.Proofs.Password.Tunables
import RealmDirectory.Proofs.Config.Expansion
import RealmDirectory.Proofs.Directory.ConnectUrl
import RealmDirectory.Proofs.Query.Mapping
import RealmDirectory.Proofs.Config.Acceptance
import RealmDirectory.Proofs.Http.Addressing
import RealmDirectory.Proofs.Query.Scan
import RealmDirectory.Proofs.Query.Trailing
import RealmDirectory.Proofs.Config.Secrets
