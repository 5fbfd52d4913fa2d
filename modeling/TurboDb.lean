import TurboDb.Budget.Invariant
import TurboDb.Catalog.RoundTrip
import TurboDb.Expr.Correct
import TurboDb.IndexKey.RoundTrip
import TurboDb.IndexLookup.Bind
import TurboDb.IndexRecord.RoundTrip
import TurboDb.Mysql.DispatchExchange
import TurboDb.Mysql.Guard
import TurboDb.Mysql.Server
import TurboDb.Orm.PlanBuild
import TurboDb.Orm.RenderCorrect
import TurboDb.Query.AggregateCorrect
import TurboDb.Query.Join
import TurboDb.Query.CteBind
import TurboDb.Query.Page
import TurboDb.Query.Subquery
import TurboDb.Redis.Cluster
import TurboDb.Redis.Command
import TurboDb.Redis.Retention
import TurboDb.Redis.Pool
import TurboDb.Relation.Row
import TurboDb.Value.Like
