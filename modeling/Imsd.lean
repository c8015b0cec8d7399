import Imsd.Lib.Trace
import Imsd.Lib.Fuel
import Imsd.QmiProgress
import Imsd.DcmClients
import Imsd.DcmAccess
import Imsd.WdsReadiness
import Imsd.WdsSessions
import Imsd.WdsDesign
import Imsd.SystemIsolation
import Imsd.SystemIndications
import Imsd.QmiBuild
import Imsd.DcmIndications
import Imsd.Startup
import Imsd.PdcInit
import Imsd.PdcListing
import Imsd.PdcAllOrNothing
import Imsd.McfgReport
import Imsd.QmiReads
import Imsd.QmiOffset
import Imsd.QmiBuildBounds
import Imsd.WdsAddress
import Imsd.WdsSteps
import Imsd.WdsOutstanding
import Imsd.WdsLink
import Imsd.WdsProfiles
import Imsd.PdcLoaded
import Imsd.PdcActivate
import Imsd.PdcLocateItems
import Imsd.McfgSectionRecords
import Imsd.McfgItemRecords
import Imsd.WdsChain
import Imsd.PdcScan
import Imsd.Config
import Imsd.Main
import Imsd.WdsOrder
import Imsd.WdsNetmask
import Imsd.SystemComesUp
import Imsd.QmiImsClientStartup
import Imsd.DcmTraffic
