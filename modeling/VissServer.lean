import VissServer.AtServer.Steps
import VissServer.Go.JsonSplice
import VissServer.Managers.Origin
import VissServer.ServiceMgr.Answers
import VissServer.ServiceMgr.Subscribing
import VissServer.Library.Runs
import VissServer.Library.Tables
import VissServer.Library.ReplayCache
import VissServer.AtServer.Consent
import VissServer.AtServer.GatingIds
import VissServer.AtServer.Listing
import VissServer.AtServer.ExpiryTicker
import VissServer.AtServer.Revocation
import VissServer.Core.Isolation
import VissServer.ServiceMgr.Killing
import VissServer.ServiceMgr.CloseSignals
import VissServer.ServiceMgr.LoopSafety
import VissServer.ServiceMgr.Unsubscribing
import VissServer.ServiceMgr.Cancelling
import VissServer.ServiceMgr.TickerTable
import VissServer.Channels.Service
import VissServer.Channels.Transport
import VissServer.Channels.TokenServer
import VissServer.Utils.Decompressing
import VissServer.Utils.VissMessages
import VissServer.Utils.Codecs
import VissServer.Utils.RoundTrip
import VissServer.Utils.UncompressedTexts
import VissServer.Utils.KeyBinding
import VissServer.Utils.TokenClaims
import VissServer.AgtServer.Answering
import VissServer.Channels.Handlers
import VissServer.Core.Decision
import VissServer.Core.Completion
import VissServer.Core.TokenRequests
import VissServer.AtServer.Validation
import VissServer.AgtServer.Replays
import VissServer.GrpcMgr.Release
import VissServer.Core.SetSignals
import VissServer.Utils.VissRequests
import VissServer.Feeder.DomainIsomorphism
import VissServer.WsMgr.ClientIndices
import VissServer.WsMgr.Isolation
import VissServer.GrpcMgr.Handlers
import VissServer.Core.NoScope
import VissServer.ServiceMgr.CurveLogSessions
import VissServer.ServiceMgr.CurveLogSelected
import VissServer.ServiceMgr.CurveLogConstants
import VissServer.ServiceMgr.CurveLogAccounting
import VissServer.ServiceMgr.CurveLogSafety
import VissServer.ServiceMgr.DimensionGrouping
import VissServer.ServiceMgr.SessionAccounts
import VissServer.ServiceMgr.HistoryGet
import VissServer.ServiceMgr.HistorySafety
import VissServer.AgtServer.ToldClaims
import VissServer.Utils.IntegerCodes
import VissServer.Utils.EcdsaSignatures
import VissServer.Utils.FilterUnpacking
import VissServer.Client.Timestamps
import VissServer.Utils.LocalTimes
import VissServer.Managers.RouterIds
import VissServer.Managers.Classification
import VissServer.ServiceMgr.HistoryCapture
import VissServer.ServiceMgr.ChangeRuns
import VissServer.Core.MetadataTree
import VissServer.AtServer.RoleMatching
import VissServer.Utils.PathIndices
import VissServer.AtServer.PolicyForms
import VissServer.Feeder.HandledData
import VissServer.Feeder.LinearCoefficients
import VissServer.Datamodel.TreeFiles
import VissServer.AtServer.JsonReplies
import VissServer.ServiceMgr.ResponseData
import VissServer.Datamodel.TreeImport
import VissServer.ServiceMgr.CurveLogSeveral
import VissServer.MqttMgr.Manager
import VissServer.Utils.VissResponses
import VissServer.Utils.WsTexts
import VissServer.Feeder.Standstill
