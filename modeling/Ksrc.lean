import Ksrc.Guarantees.AvcStale
import Ksrc.Guarantees.AvcEnforcing
import Ksrc.Guarantees.LandlockLineage
import Ksrc.Guarantees.LandlockReparent
import Ksrc.Guarantees.LandlockTies
import Ksrc.Guarantees.ContextRetry
import Ksrc.Guarantees.KvCacheUnlinks
import Ksrc.Guarantees.KvCacheIncrements
import Ksrc.Guarantees.KvCacheFreeings
import Ksrc.Guarantees.LuaRegistration
import Ksrc.Guarantees.LuaVerdicts
import Ksrc.Guarantees.LuaVmFreeings
import Ksrc.Guarantees.UnknownXperms
import Ksrc.Guarantees.PermissionValues
import Ksrc.Guarantees.EbitmapStreams
import Ksrc.Guarantees.CondExprs
import Ksrc.Guarantees.AccessDecisions
import Ksrc.Guarantees.SidtabLevels
import Ksrc.Guarantees.SidtabStats
import Ksrc.Guarantees.NetLabelAnswers
import Ksrc.Guarantees.SidtabStrings
import Ksrc.Guarantees.ContextBuffers
import Ksrc.Guarantees.LandlockHarmless
import Ksrc.Guarantees.LandlockRefusals
import Ksrc.Guarantees.AvcStructure
import Ksrc.Guarantees.ComputedRanges
import Ksrc.Guarantees.LandlockFiles
import Ksrc.Guarantees.LuaArguments
import Ksrc.Guarantees.PolicyReloads
