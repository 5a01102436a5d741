import ExchangeLab.Matching.PriceTime
import ExchangeLab.Recovery.Appendable
import ExchangeLab.Risk.Callbacks
import ExchangeLab.Risk.Decisions
import ExchangeLab.Recovery.Agreement
import ExchangeLab.Recovery.Epochs
import ExchangeLab.Server.Ownership
import ExchangeLab.Protocol.Codecs
import ExchangeLab.Matching.Atomicity
import ExchangeLab.Matching.Conservation
import ExchangeLab.Server.Responses
import ExchangeLab.Server.Receive
import ExchangeLab.Server.Executions
import ExchangeLab.Server.Exposure
import ExchangeLab.Server.Clearing
import ExchangeLab.Server.Survival
import ExchangeLab.Server.Level3
import ExchangeLab.Server.Serial
import ExchangeLab.Server.Sequence
import ExchangeLab.Server.Multicast
import ExchangeLab.Server.Feed
import ExchangeLab.Server.Notional
import ExchangeLab.Multicast.Wakeup
import ExchangeLab.Ring.Fifo
import ExchangeLab.Fix.RoundTrip
import ExchangeLab.Fix.Bounds
import ExchangeLab.Fix.Segmentation
import ExchangeLab.Gateway.Bridge
import ExchangeLab.Gateway.Answers
import ExchangeLab.Gateway.Quantities
import ExchangeLab.Gateway.Translation
import ExchangeLab.Gateway.Execution
import ExchangeLab.Gateway.SelfTrades
import ExchangeLab.Gateway.Fills
import ExchangeLab.Gateway.Agreement
import ExchangeLab.Gateway.ExecIds
import ExchangeLab.Gateway.Wire
import ExchangeLab.Server.Tracking
import ExchangeLab.Server.KillSwitch
import ExchangeLab.TradeBuffer
import ExchangeLab.WebSocketGateway
import ExchangeLab.WebSocket.Display
import ExchangeLab.PerformanceMetrics
