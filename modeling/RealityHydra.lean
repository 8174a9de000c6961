import RealityHydra.HydraServer.Handle
import RealityHydra.HydraClient.Tunnel
import RealityHydra.HydraClient.Socks5
import RealityHydra.PoolEngine.Select
import RealityHydra.HydraClient.Pipeline
import RealityHydra.Lib.Transition
import RealityHydra.HydraClient.Refresh
import RealityHydra.TunnelSession.Agreement
import RealityHydra.DnsWarmer.Warmer
import RealityHydra.DnsWarmer.Concurrent
import RealityHydra.DnsWarmer.Provenance
import RealityHydra.DnsWarmer.Racing
import RealityHydra.PoolEngine.Sticky
import RealityHydra.Lib.SymbolicCrypto
import RealityHydra.RealityTls.Auth
import RealityHydra.RealityTls.Forgery
import RealityHydra.HydraCli.MasterSecret
import RealityHydra.HealthCheck.San
import RealityHydra.HealthCheck.Report
import RealityHydra.Lib.Traversal
import RealityHydra.HealthCheck.Checker
import RealityHydra.PoolEngine.Load
import RealityHydra.Lib.Base64
import RealityHydra.DnsWarmer.Completed
import RealityHydra.HydraClient.Connection
import RealityHydra.HydraClient.LivePool
import RealityHydra.HydraClient.Camouflage
import RealityHydra.HydraClient.Replies
import RealityHydra.Lib.Toml
import RealityHydra.Lib.TomlReader
import RealityHydra.PoolEngine.Document
import RealityHydra.HydraCli.Init
import RealityHydra.HydraCli.InitDocument
import RealityHydra.HydraCli.LoadsBack
import RealityHydra.Lib.Files
import RealityHydra.HydraServer.Tls
import RealityHydra.HydraServer.CertStore
import RealityHydra.HydraServer.ClockSecrecy
import RealityHydra.Lib.TomlDocument
import RealityHydra.Lib.TomlGrammar
import RealityHydra.Setup.Bundle
import RealityHydra.Lib.TomlLineGrammar
import RealityHydra.Setup.ClientSafe
import RealityHydra.Lib.Reading
import RealityHydra.Lib.SocketAddress
import RealityHydra.Lib.PrintedAddress
import RealityHydra.TunnelProto.DialString
import RealityHydra.HydraClient.Socks5Grammar
import RealityHydra.PoolEngine.DurationText
import RealityHydra.PoolEngine.Coupling
import RealityHydra.Lib.CumulativeWeights
import RealityHydra.PoolEngine.Proportional
import RealityHydra.DnsWarmer.Lifetime
import RealityHydra.Lib.Json
import RealityHydra.Lib.JsonText
import RealityHydra.HydraCli.Render
import RealityHydra.HydraCli.RenderersAgree
import RealityHydra.PoolEngine.HexText
import RealityHydra.HydraCli.ShortIds
import RealityHydra.HydraServer.Node
import RealityHydra.HydraServer.Authenticity
import RealityHydra.Lib.Relay
import RealityHydra.TunnelSession.Relaying
import RealityHydra.System.Requests
import RealityHydra.DnsWarmer.Housekeeping
import RealityHydra.HydraClient.Footprint
import RealityHydra.Hardening.Checklist
import RealityHydra.PoolEngine.Extension
import RealityHydra.Lib.LineEditing
import RealityHydra.Setup.Summary
import RealityHydra.Setup.Manual
import RealityHydra.Setup.Reshare
import RealityHydra.Setup.Installed
import RealityHydra.System.Enrolment
import RealityHydra.HydraCli.Keygen
import RealityHydra.System.StaleNames
import RealityHydra.System.PresentedNames
import RealityHydra.System.FrontNames
import RealityHydra.DnsWarmer.Hickory
import RealityHydra.Lib.Adversary
import RealityHydra.Setup.Fleet
import RealityHydra.Setup.KeySecrecy
import RealityHydra.Setup.Windows
