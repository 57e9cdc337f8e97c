import SerialLink.Log
import SerialLink.Archive.ClockLayout
import SerialLink.Storage.DiskFile
import SerialLink.Counterpart
import SerialLink.ManualPort
import SerialLink.Tcp.Network
import SerialLink.SerialPort.Plug
import SerialLink.SerialPort.Snapshot
import SerialLink.Tool.Run
import SerialLink.Main
import SerialLink.Proofs.AnswerBits
import SerialLink.Proofs.Answers
import SerialLink.Proofs.Archive
import SerialLink.Proofs.Delivery
import SerialLink.Proofs.Sending
import SerialLink.Proofs.Scroll
import SerialLink.Proofs.Stream
import SerialLink.Proofs.Streams
import SerialLink.Proofs.Turns
import SerialLink.Proofs.Listening
import SerialLink.Proofs.Dialogue
import SerialLink.Proofs.Loss
import SerialLink.Proofs.Threads
import SerialLink.Proofs.Lockstep
import SerialLink.Proofs.Fifo
import SerialLink.Proofs.Afresh
import SerialLink.Proofs.Pacing
import SerialLink.Proofs.Speech
import SerialLink.Proofs.AtWork
import SerialLink.Proofs.Printing
import SerialLink.Proofs.Reports
import SerialLink.Proofs.Conversation
import SerialLink.Proofs.Courses
import SerialLink.Proofs.Addresses
import SerialLink.Proofs.Snapshots
import SerialLink.Proofs.Release
import SerialLink.Proofs.Batches
import SerialLink.Proofs.Unwound
import SerialLink.Proofs.Merging
import SerialLink.Proofs.Configs
import SerialLink.Proofs.Wire
import SerialLink.Proofs.CommandLine
import SerialLink.Proofs.Numerals
import SerialLink.Proofs.Established
