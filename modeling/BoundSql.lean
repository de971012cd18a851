import BoundSql.Coercion.Target
import BoundSql.Criteria.Validity
import BoundSql.Proofs.Coercion.Enumeration
import BoundSql.Proofs.Coercion.Equality
import BoundSql.Proofs.Coercion.Instant
import BoundSql.Proofs.Coercion.Integer
import BoundSql.Proofs.Coercion.Registry
import BoundSql.Proofs.Criteria.Blame
import BoundSql.Proofs.Criteria.Gathering
import BoundSql.Proofs.Criteria.Template
import BoundSql.Proofs.Parameter.Fresh
import BoundSql.Proofs.Parameter.Spelling
import BoundSql.Proofs.Row.Agreement
import BoundSql.Proofs.Row.ShapeCache
import BoundSql.Proofs.Row.Unwrap
import BoundSql.Proofs.Session.Agreement
import BoundSql.Proofs.Session.Breakdown
import BoundSql.Proofs.Session.CancelToken
import BoundSql.Proofs.Session.Iteration
import BoundSql.Proofs.Session.Slot
import BoundSql.Proofs.Session.Stream
import BoundSql.Proofs.Settings.Environment
import BoundSql.Proofs.Statement.Absence
import BoundSql.Proofs.Statement.Addition
import BoundSql.Proofs.Statement.Lists
import BoundSql.Proofs.Statement.Merging
import BoundSql.Proofs.Statement.Page
import BoundSql.Proofs.Statement.Redeployment
import BoundSql.Proofs.Statement.Rendering
import BoundSql.Proofs.Statement.Secrecy
import BoundSql.Proofs.Store.Binding
import BoundSql.Store.Request
