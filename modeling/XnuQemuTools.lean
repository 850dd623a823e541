import XnuQemuTools.Calls
import XnuQemuTools.Memory
import XnuQemuTools.Monitor
import XnuQemuTools.Turns
import XnuQemuTools.MonitorProgress
import XnuQemuTools.BlockDev
import XnuQemuTools.BlockDevBounds
import XnuQemuTools.BlockDevGeometry
import XnuQemuTools.BlockDevRefine
import XnuQemuTools.BlockDevSerial
import XnuQemuTools.BlockDevNested
import XnuQemuTools.Tunnel
import XnuQemuTools.TunnelFds
import XnuQemuTools.TunnelShutdown
import XnuQemuTools.TunnelRelay
import XnuQemuTools.Loop
import XnuQemuTools.Python
import XnuQemuTools.Lzss
import XnuQemuTools.LzssTokens
import XnuQemuTools.LzssStream
import XnuQemuTools.LzssWindow
import XnuQemuTools.CString
import XnuQemuTools.ExtractMonitor
import XnuQemuTools.Words
import XnuQemuTools.Fbuc
import XnuQemuTools.FbucPorts
import XnuQemuTools.FbucCounts
import XnuQemuTools.TrustCache
import XnuQemuTools.TrustCacheForm
import XnuQemuTools.PythonInt
import XnuQemuTools.TrustCacheAccepts
import XnuQemuTools.BinSearch
import XnuQemuTools.TrustCacheOrder
import XnuQemuTools.Interleave
import XnuQemuTools.LogHooks
import XnuQemuTools.Itoa
import XnuQemuTools.ItoaBuffer
import XnuQemuTools.IpcMessage
import XnuQemuTools.Kvm
import XnuQemuTools.KvmRegs
import XnuQemuTools.Exceptions
import XnuQemuTools.Gdb
import XnuQemuTools.Links
import XnuQemuTools.KernelLists
import XnuQemuTools.KernelObjects
import XnuQemuTools.KernelPrinters
import XnuQemuTools.KernelFields
import XnuQemuTools.SwitchThread
import XnuQemuTools.SwitchThreadRestore
import XnuQemuTools.AddressSpec
import XnuQemuTools.BlockDevFaults
import XnuQemuTools.FbucNotify
import XnuQemuTools.FbucThreads
import XnuQemuTools.Once
import XnuQemuTools.Output
import XnuQemuTools.KernelImage
import XnuQemuTools.KernelReads
import XnuQemuTools.ThreadCommands
import XnuQemuTools.IpcEntries
import XnuQemuTools.Zones
import XnuQemuTools.GdbCommands
import XnuQemuTools.DriverClasses
import XnuQemuTools.DriverBoot
import XnuQemuTools.DriverBootOnce
import XnuQemuTools.KvmModule
import XnuQemuTools.Layers
import XnuQemuTools.TunnelCalls
import XnuQemuTools.BootstrapScripts
import XnuQemuTools.Lines
import XnuQemuTools.Backtracking
import XnuQemuTools.ColorAddress
import XnuQemuTools.Csv
import XnuQemuTools.GetSymbols
import XnuQemuTools.PythonText
import XnuQemuTools.GdbText
import XnuQemuTools.LogHooksMutex
