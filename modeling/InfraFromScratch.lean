import InfraFromScratch.Foundations.Bytes
import InfraFromScratch.Foundations.ReplyMachine
import InfraFromScratch.Foundations.ExpiringMap
import InfraFromScratch.Foundations.LeaseList
import InfraFromScratch.Foundations.Lines
import InfraFromScratch.Foundations.Search
import InfraFromScratch.Foundations.Arrival
import InfraFromScratch.Foundations.Rotation
import InfraFromScratch.Foundations.Words
import InfraFromScratch.Foundations.Transitions
import InfraFromScratch.Foundations.Datagrams
import InfraFromScratch.Foundations.GoText
import InfraFromScratch.Foundations.PythonText
import InfraFromScratch.Foundations.Numerals
import InfraFromScratch.Foundations.GoSlices
import InfraFromScratch.Foundations.CharArrays
import InfraFromScratch.Cache.Store
import InfraFromScratch.Cache.StoreRefinement
import InfraFromScratch.Cache.Protocol
import InfraFromScratch.Cache.Reachable
import InfraFromScratch.Cache.LastWrite
import InfraFromScratch.Cache.Grammar
import InfraFromScratch.Cache.Connection
import InfraFromScratch.Cache.LineLimit
import InfraFromScratch.Cache.Clients
import InfraFromScratch.Cache.Threads
import InfraFromScratch.Cache.Memory
import InfraFromScratch.Cache.MemorySafety
import InfraFromScratch.Dns.Message
import InfraFromScratch.Dns.Server
import InfraFromScratch.Dns.Answers
import InfraFromScratch.Gateway.Relay
import InfraFromScratch.LoadBalancer.Pool
import InfraFromScratch.LoadBalancer.PoolRefinement
import InfraFromScratch.LoadBalancer.Connection
import InfraFromScratch.LoadBalancer.SelectionIndex
import InfraFromScratch.LoadBalancer.Failover
import InfraFromScratch.LoadBalancer.Health
import InfraFromScratch.LoadBalancer.Turns
import InfraFromScratch.LoadBalancer.Cooldown
import InfraFromScratch.LoadBalancer.Removal
import InfraFromScratch.LoadBalancer.PoolMemory
import InfraFromScratch.LoadBalancer.Goroutines
import InfraFromScratch.LoadBalancer.ServingTurns
import InfraFromScratch.LoadBalancer.Registry
import InfraFromScratch.ReverseProxy.Connection
import InfraFromScratch.ReverseProxy.Delivery
import InfraFromScratch.Http.CacheClient
import InfraFromScratch.Http.DnsClient
import InfraFromScratch.Http.DnsResponses
import InfraFromScratch.Http.Server
import InfraFromScratch.Http.Application
import InfraFromScratch.Http.Requests
import InfraFromScratch.Http.Responses
import InfraFromScratch.Http.RequestRoundTrip
import InfraFromScratch.Http.HeaderSoundness
import InfraFromScratch.Http.AcceptedRequests
import InfraFromScratch.Http.Address
import InfraFromScratch.Http.CacheAside
import InfraFromScratch.Http.CacheFailures
import InfraFromScratch.Http.Connection
import InfraFromScratch.Container.Supervisor
import InfraFromScratch.Container.Startup
import InfraFromScratch.Container.FailClosed
import InfraFromScratch.Container.ExitCode
import InfraFromScratch.Container.Attributes
import InfraFromScratch.Container.Confinement
import InfraFromScratch.Stack.CacheRoundTrip
import InfraFromScratch.Stack.NameResolution
import InfraFromScratch.Stack.ResolverNetwork
import InfraFromScratch.Stack.EmptyAnswers
import InfraFromScratch.Stack.RequestChain
import InfraFromScratch.Stack.RequestReading
import InfraFromScratch.Stack.BodyFraming
import InfraFromScratch.Stack.CacheTransparency
import InfraFromScratch.Stack.Deregistration
import InfraFromScratch.Stack.RequestSplitting
import InfraFromScratch.Stack.RegistryAddresses
import InfraFromScratch.Stack.ResponseChain
