import Cm.Mysql.Wire
import Cm.Mysql.Field
import Cm.Schema.Table
import Cm.TabletServer.TableInfo
import Cm.TabletServer.IndexGroups
import Cm.TabletServer.Covering
import Cm.TabletServer.SetPK
import Cm.TabletServer.Lifecycle
import Cm.TabletServer.CachePool
import Cm.TabletServer.PoolClients
import Cm.TabletServer.PoolMutex
import Cm.TabletServer.Memcache
import Cm.Sqlparser.Ast
import Cm.Sqlparser.Node
import Cm.Planbuilder.Query
import Cm.Planbuilder.Restore
import Cm.Planbuilder.Plan
