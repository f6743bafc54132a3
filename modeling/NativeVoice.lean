import NativeVoice.Video.Loss
import NativeVoice.Video.Descriptors
import NativeVoice.Video.VP9Header
import NativeVoice.Video.Fragmentation
import NativeVoice.Video.Rejection
import NativeVoice.Video.NalStreams
import NativeVoice.Video.StripFiller
import NativeVoice.Video.AV1.Streams
import NativeVoice.Video.AV1.Accounting
import NativeVoice.Video.AV1.Safety
import NativeVoice.Receive.Recovery
import NativeVoice.Rtp.Sequence
import NativeVoice.Connection.Listeners
import NativeVoice.Transport.Nonces
import NativeVoice.Transport.Rtcp
import NativeVoice.Transport.Ping
import NativeVoice.Transport.DispatchCounters
import NativeVoice.Send.Continuity
import NativeVoice.Send.Statistics
import NativeVoice.Send.AudioReports
import NativeVoice.Send.KeyframeCache
import NativeVoice.Send.VideoReports
import NativeVoice.Send.MediaPlayer
import NativeVoice.Send.Delivery
import NativeVoice.Send.FrameDelivery
import NativeVoice.Receive.ReorderDelay
import NativeVoice.Receive.ReportRuns
import NativeVoice.Receive.Jitter
import NativeVoice.Receive.NackRuns
import NativeVoice.Receive.DeliveryOrder
import NativeVoice.Receive.DaveFrames
import NativeVoice.Media.PerUserSink
import NativeVoice.Media.MixedWaveSink
import NativeVoice.Media.MixedSamples
import NativeVoice.Media.AnnexBReads
import NativeVoice.Media.ConfigKeyframes
import NativeVoice.Media.SinkCleanup
import NativeVoice.Media.SinkGraph
import NativeVoice.Media.MuxAudio
import NativeVoice.Media.QueueSink
import NativeVoice.Media.OpusDecoding
import NativeVoice.Media.MixedSources
import NativeVoice.Media.SinkDelivery
import NativeVoice.Media.SilenceFill
import NativeVoice.Media.IvfFrameReader
import NativeVoice.Capture.PointerOverlay
import NativeVoice.Video.Timestamps
import NativeVoice.Video.AV1.SizeArithmetic
