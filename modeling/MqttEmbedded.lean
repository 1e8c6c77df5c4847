import MqttEmbedded.Packet.Chunking
import MqttEmbedded.Packet.PublishCodec
import MqttEmbedded.Packet.SubackCodec
import MqttEmbedded.Packet.ConnectCodec
import MqttEmbedded.Packet.AckCodec
import MqttEmbedded.Packet.SerializeRoom
import MqttEmbedded.Packet.CutStream
import MqttEmbedded.Packet.ConnectAcceptance
import MqttEmbedded.Packet.LengthCodec
import MqttEmbedded.Packet.WrittenStrings
import MqttEmbedded.Packet.Format
import MqttEmbedded.Client.TopicMatching
import MqttEmbedded.Client.StringForms
import MqttEmbedded.ClientC.ReaderBounds
import MqttEmbedded.ClientC.PartialWrites
import MqttEmbedded.ClientC.Synchronisation
import MqttEmbedded.ClientC.InboundTraffic
import MqttEmbedded.ClientC.History
import MqttEmbedded.ClientC.Agreement
import MqttEmbedded.ClientC.Deliveries
import MqttEmbedded.ClientC.Acceptance
import MqttEmbedded.ClientC.Subscribing
import MqttEmbedded.ClientC.HandlerTable
import MqttEmbedded.ClientC.Keepalive
import MqttEmbedded.ClientC.Persistence
import MqttEmbedded.ClientC.PacketIds
import MqttEmbedded.ClientC.Termination
import MqttEmbedded.ClientC.Definedness
import MqttEmbedded.ClientCpp.HandlerCalls
import MqttEmbedded.ClientCpp.InFlight
import MqttEmbedded.ClientCpp.Unacknowledged
import MqttEmbedded.ClientCpp.Interleaving
import MqttEmbedded.ClientCpp.Termination
import MqttEmbedded.ClientCpp.InboundTraffic
import MqttEmbedded.ReaderAgreement
import MqttEmbedded.Linux.PacketRuns
