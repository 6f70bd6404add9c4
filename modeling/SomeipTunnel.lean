import SomeipTunnel.Tp.Isolation
import SomeipTunnel.Tp.RoundTrip
import SomeipTunnel.Tp.Segmentation
import SomeipTunnel.Tunnel.Correlation
import SomeipTunnel.Tunnel.Mirror
import SomeipTunnel.Tunnel.Survival
import SomeipTunnel.Endpoint.ClientTrain
import SomeipTunnel.Endpoint.ClientOrder
import SomeipTunnel.Endpoint.TargetQueue
import SomeipTunnel.Endpoint.Udp
import SomeipTunnel.Security.Requesters
import SomeipTunnel.Security.Update
import SomeipTunnel.Protocol.SecurityPolicies
import SomeipTunnel.Security.Credentials
import SomeipTunnel.Sd.OptionFraming
import SomeipTunnel.Sd.OptionRuns
import SomeipTunnel.Sd.Splitting
import SomeipTunnel.Sd.Duplicates
import SomeipTunnel.Sd.SubscriptionTtl
import SomeipTunnel.Sd.FindRepetition
import SomeipTunnel.Sd.DiagnosisOffers
import SomeipTunnel.Routing.DebounceFilter
import SomeipTunnel.Sd.Reboot
import SomeipTunnel.Sd.RemoteOffers
import SomeipTunnel.E2e.MemorySafety
import SomeipTunnel.E2e.Counter
import SomeipTunnel.Routing.OfferQueue
import SomeipTunnel.Routing.ClientCommands
import SomeipTunnel.Routing.Registration
import SomeipTunnel.Protocol.ConfigCommand
import SomeipTunnel.Protocol.RegisterEvents
import SomeipTunnel.Protocol.SubscribeParser
import SomeipTunnel.Protocol.RoutingInfoParser
import SomeipTunnel.Application.Dispatch
import SomeipTunnel.Routing.RemoveLocal
import SomeipTunnel.Routing.RemoteTtl
import SomeipTunnel.Routing.ExternalMessage
import SomeipTunnel.Routing.NotificationTargets
import SomeipTunnel.Routing.SubscriptionIds
import SomeipTunnel.Routing.PingSupervision
import SomeipTunnel.Routing.DebounceClients
import SomeipTunnel.Application.AvailableQuery
import SomeipTunnel.Application.SubscriptionStatus
import SomeipTunnel.Someip.DeserializerRuns
import SomeipTunnel.Routing.EventStatistics
import SomeipTunnel.Tracing.Channel
import SomeipTunnel.Endpoint.MulticastOptions
