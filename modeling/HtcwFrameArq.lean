import HtcwFrameArq.Controller
import HtcwFrameArq.Wire
import HtcwFrameArq.Decoder
import HtcwFrameArq.Receiver
import HtcwFrameArq.Handling
import HtcwFrameArq.Runs
import HtcwFrameArq.Endpoint
import HtcwFrameArq.Sequence
import HtcwFrameArq.Soundness
import HtcwFrameArq.Sender
import HtcwFrameArq.StopAndWait
import HtcwFrameArq.Framing
import HtcwFrameArq.Network
import HtcwFrameArq.Session
import HtcwFrameArq.Recovery
import HtcwFrameArq.Realign
import HtcwFrameArq.Stream
import HtcwFrameArq.Damage
import HtcwFrameArq.Resync
import HtcwFrameArq.CheckSum
import HtcwFrameArq.Bursts
import HtcwFrameArq.Rejections
import HtcwFrameArq.ReturnCodes
import HtcwFrameArq.Leftover
import HtcwFrameArq.Limits
import HtcwFrameArq.EspSerialSession
import HtcwFrameArq.SessionFrames
import HtcwFrameArq.Transducer
import HtcwFrameArq.SessionReader
import HtcwFrameArq.Agreement
import HtcwFrameArq.Interoperation
import HtcwFrameArq.SendQueue
import HtcwFrameArq.LateWrites
import HtcwFrameArq.LateFrames
import HtcwFrameArq.Schedule
import HtcwFrameArq.TwoBuilds
import HtcwFrameArq.FreshStart
import HtcwFrameArq.LeftmostRun
import HtcwFrameArq.MarkerSearch
import HtcwFrameArq.Closing
import HtcwFrameArq.PromptWrites
import HtcwFrameArq.Duplex
import HtcwFrameArq.BothWays
import HtcwFrameArq.Commands
import HtcwFrameArq.Readers
import HtcwFrameArq.Codecs
import HtcwFrameArq.Header
import HtcwFrameArq.WireSize
import HtcwFrameArq.WireFormat
import HtcwFrameArq.Buffers
import HtcwFrameArq.Emitted
import HtcwFrameArq.BuffersGenC
import HtcwFrameArq.Linking
import HtcwFrameArq.GeneratedWrites
import HtcwFrameArq.GeneratedReads
import HtcwFrameArq.GeneratedSizes
import HtcwFrameArq.Calls
import HtcwFrameArq.Generated
import HtcwFrameArq.Enumerators
import HtcwFrameArq.Acceptance
import HtcwFrameArq.Firmware
import HtcwFrameArq.Requests
import HtcwFrameArq.Loop
import HtcwFrameArq.Demo
