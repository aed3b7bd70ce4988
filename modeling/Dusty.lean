import Dusty.RouterSelect
import Dusty.HandlerInv
import Dusty.Framing
import Dusty.ErrorReply
import Dusty.StreamFraming
import Dusty.HeadTwin
import Dusty.HeadGet
import Dusty.Llhttp
import Dusty.Parser
import Dusty.Reader
import Dusty.ParserFeed
import Dusty.HeadRoom
import Dusty.ReadRoom
import Dusty.Http1
import Dusty.BigEndian
import Dusty.WebSocket
import Dusty.WebSocketFrames
import Dusty.WebSocketWire
import Dusty.WebSocketCloses
import Dusty.WebSocketHandshake
import Dusty.WebSocketMessages
import Dusty.WebSocketRejects
import Dusty.Utf8
import Dusty.EventSource
import Dusty.EventStream
import Dusty.EventRoundTrip
import Dusty.BodyRead
import Dusty.ClientRequest
import Dusty.Trailers
import Dusty.Client
import Dusty.Redirects
import Dusty.AcceptKey
import Dusty.Exchange
import Dusty.Server
import Dusty.Answered
import Dusty.Edits
import Dusty.RouterSearch
import Dusty.RouterParams
import Dusty.RouterMonotone
import Dusty.PoolTasks
import Dusty.ClientWebSocket
import Dusty.ClientRuns
import Dusty.PoolIdentity
import Dusty.PoolLeftovers
import Dusty.HeadEnd
import Dusty.MessageHead
import Dusty.ClientHops
import Dusty.HeadResponse
import Dusty.MessageRead
import Dusty.InterimResponses
import Dusty.Base64Url
import Dusty.RequestWire
import Dusty.Session
import Dusty.CookieJar
import Dusty.Escapes
import Dusty.SessionText
import Dusty.UrlEncoded
import Dusty.FormData
import Dusty.Multipart
import Dusty.Attributes
import Dusty.PartHeader
import Dusty.SplitText
import Dusty.MultipartParts
import Dusty.BoundaryScan
import Dusty.BodyKeeps
import Dusty.MultipartForms
import Dusty.BoundaryParameter
import Dusty.QuotedAttributes
import Dusty.FormBodies
import Dusty.FormsAgain
import Dusty.FormEscapes
import Dusty.WholeBodies
import Dusty.SessionRuns
import Dusty.SessionLoad
import Dusty.CookieText
import Dusty.CookieLookup
import Dusty.HeaderLines
import Dusty.BufferedFraming
import Dusty.Transport
import Dusty.FailedStreams
import Dusty.StatusLines
import Dusty.SealedResponses
import Dusty.LastChunk
import Dusty.HeaderOnly
import Dusty.HeaderJson
import Dusty.SessionMap
import Dusty.MediaTypes
import Dusty.Decimals
import Dusty.DrainLimit
import Dusty.Shutdown
import Dusty.Releases
import Dusty.IdleTimeout
import Dusty.RequestBudget
import Dusty.CleanPool
import Dusty.MessageBoundary
import Dusty.HandlerSteps
import Dusty.Rounds
import Dusty.RequestsAnswered
import Dusty.RoundLog
import Dusty.ContinueWaits
import Dusty.HeadSplits
import Dusty.Lasting
import Dusty.LastRequest
import Dusty.Middleware
import Dusty.Cors
import Dusty.Registrations
import Dusty.Dialogue
import Dusty.Duplex
import Dusty.WebSocketPair
